import RiscBoard.Console
import RiscBoard.Proofs.Core.Reporting
import RiscBoard.Proofs.Text.Numerals

/-!
What a program prints. On the console the bytes of a run are those that its executed words ask for,
in the order of their execution; the line of a program that ends itself is the last of them. No
state of the run depends on whether they can be written.
-/

namespace RiscBoard

namespace Console

def hostAfter (writer : Writer) (calls : List HookCall) : Host :=
  { host writer with calls := calls }

def wordDigits (value : UInt32) : List Char :=
  (List.range 8).reverse.map fun position => (value.toNat / 16 ^ position % 16).digitChar

def exitBytes (value : UInt32) : List UInt8 :=
  ("\na0=".toList ++ wordDigits value ++ "\n".toList).map Char.toUInt8

theorem toList_exitLine (registers : RegisterFile) :
    (exitLine registers).toList =
      "\na0=".toList ++ wordDigits (registers.get .argument) ++ "\n".toList := by
  have fits : (registers.get .argument).toNat < 16 ^ (7 + 1) := (registers.get .argument).toNat_lt
  rw [exitLine, String.toList_append, String.toList_append, Text.paddedDigits,
    Text.leftpad_toDigits (by decide) 7 _ fits]
  exact congrArg ("\na0=".toList ++ · ++ "\n".toList) String.toList_ofList

/-- The console services the requests that it writes something for. -/
theorem action_of_unrequested {request : HookCall} (unrequested : requested? request = none) :
    action request = .raise := by
  obtain ⟨kind, immediate, registers⟩ := request
  cases kind with
  | syscall =>
    by_cases serviced : immediate = putCharacter
    · rw [requested?, if_pos serviced] at unrequested
      cases unrequested
    · exact if_neg serviced
  | debug =>
    by_cases serviced : immediate = exit
    · rw [requested?, if_pos serviced] at unrequested
      cases unrequested
    · exact if_neg serviced

end Console

namespace Core

def withConsole (core : Core) (writer : Console.Writer) (calls : List HookCall) : Core :=
  { core with host := some (Console.hostAfter writer calls) }

/-- What the word of this cycle prints: a system call prints a character, the end of the program its
result. -/
def printed (core : Core) : List UInt8 :=
  match core.executedWord?.map Instruction.decode with
  | some (.ok (.syscall immediate)) =>
    if immediate = Console.putCharacter then [(core.fetch.value.registers.get .scratch).toUInt8]
    else []
  | some (.ok (.debug immediate)) =>
    if immediate = Console.exit then Console.exitBytes (core.fetch.value.registers.get .argument)
    else []
  | _ => []

def Executes (core : Core) (instruction : Instruction) : Prop :=
  core.executedWord?.map Instruction.decode = some (.ok instruction)

def OnConsole (writer : Console.Writer) (core : Core) : Prop :=
  ∃ calls, core.host = some (Console.hostAfter writer calls)

section Run

variable {writer : Console.Writer} {core : Core}

theorem onConsole_withConsole (core : Core) (writer : Console.Writer) (calls : List HookCall) :
    (core.withConsole writer calls).OnConsole writer :=
  ⟨calls, rfl⟩

theorem OnConsole.step (console : core.OnConsole writer) : core.step.value.OnConsole writer := by
  obtain ⟨calls, present⟩ := console
  rw [OnConsole, host_step]
  cases core.request? with
  | none => exact ⟨calls, present⟩
  | some request =>
    refine ⟨request :: calls, ?_⟩
    rw [hostAfter, present]
    rfl

theorem OnConsole.after (console : core.OnConsole writer) (count : Nat) :
    (core.after count).OnConsole writer := by
  induction count with
  | zero => exact console
  | succ count ih =>
    rw [after_succ_last]
    exact ih.step

theorem OnConsole.hostOutput (console : core.OnConsole .open) (request? : Option HookCall) :
    core.hostOutput request? =
      request?.elim [] fun request => (Console.requested? request).getD [] := by
  obtain ⟨calls, present⟩ := console
  cases request? with
  | none => rfl
  | some request =>
    rw [Core.hostOutput, hostEvents, present]
    change Event.outputBytes (Console.report .open (request :: calls)) = _
    simp only [Console.report, Option.elim_some]
    cases Console.requested? request with
    | none => rfl
    | some bytes => exact List.append_nil bytes

theorem OnConsole.hostOutput_of_unrequested (console : core.OnConsole writer) {request : HookCall}
    (unrequested : Console.requested? request = none) : core.hostOutput (some request) = [] := by
  obtain ⟨calls, present⟩ := console
  rw [Core.hostOutput, hostEvents, present]
  change Event.outputBytes (Console.report writer (request :: calls)) = _
  rw [Console.report, unrequested]
  rfl

theorem printed_eq (core : Core) :
    core.printed = core.request?.elim [] fun request => (Console.requested? request).getD [] := by
  unfold printed request?
  cases core.executedWord? with
  | none => rfl
  | some word =>
    simp only [Option.map_some, Option.bind_some]
    cases Instruction.decode word with
    | error error => rfl
    | ok instruction =>
      cases instruction with
      | syscall immediate =>
        simp only [Except.toOption, Option.bind_some, Instruction.request?, Option.elim_some,
          Console.requested?]
        split
        · rfl
        · rfl
      | debug immediate =>
        simp only [Except.toOption, Option.bind_some, Instruction.request?, Option.elim_some,
          Console.requested?, Console.toList_exitLine]
        split
        · rfl
        · rfl
      | _ => rfl

theorem output_steps_open (console : core.OnConsole .open) (count : Nat) :
    Event.outputBytes (core.steps count).events =
      (List.range count).flatMap fun cycle => (core.after cycle).printed := by
  rw [output_steps]
  refine congrArg (fun shown => (List.range count).flatMap shown) (funext fun cycle => ?_)
  rw [(console.after cycle).hostOutput, printed_eq]

end Run

section Cycle

variable {writer : Console.Writer} {core : Core} {instruction : Instruction}

theorem Executes.running (executes : core.Executes instruction) : core.halted = false := by
  cases halted : core.halted with
  | false => rfl
  | true =>
    rw [Executes, executedWord?, halted] at executes
    cases executes

theorem Executes.decode (executes : core.Executes instruction) :
    Instruction.decode core.executing = .ok instruction := by
  have running := executes.running
  rw [Executes, executedWord?, running] at executes
  exact Option.some.inj executes

theorem Executes.request? (executes : core.Executes instruction) :
    core.request? = instruction.request? core.fetch.value.registers := by
  rw [Core.request?, executedWord?, executes.running]
  simp only [Bool.false_eq_true, ↓reduceIte, Option.bind_some, executes.decode]
  rfl

theorem Executes.step_on {calls : List HookCall} {kind : HookKind} {immediate : UInt32}
    {exception : Exception} (executes : core.Executes instruction)
    (present : core.host = some (Console.hostAfter writer calls))
    (asks : ∀ core : Core,
      core.execute instruction = core.executeHook kind immediate exception) :
    let request : HookCall := ⟨kind, immediate, core.fetch.value.registers⟩
    let asked := core.fetch.value.withConsole writer (request :: calls)
    core.step.value =
      match Console.action request with
      | .raise => (asked.raise exception).value.retire
      | .resume => asked.retire
      | .halt => { asked with halted := true }.retire := by
  have fetched : core.fetch.value.host = some (Console.hostAfter writer calls) := by
    rw [host_fetch, present]
  have decided : (Console.hostAfter writer calls).decides
      ⟨kind, immediate, core.fetch.value.registers⟩ =
        Console.action ⟨kind, immediate, core.fetch.value.registers⟩ := rfl
  rw [step_of_running executes.running, execution, executeWord_of_decode _ executes.decode, asks,
    value_executeHook, fetched]
  simp only [answered, decided]
  cases Console.action ⟨kind, immediate, core.fetch.value.registers⟩ with
  | raise => rfl
  | resume => rfl
  | halt => rfl

/-- To print a character changes nothing but what the console has been asked. -/
theorem OnConsole.step_of_putCharacter (console : core.OnConsole writer)
    (executes : core.Executes (.syscall Console.putCharacter)) :
    ∃ host, core.step.value = { core.fetch.value with host := host }.retire := by
  obtain ⟨calls, present⟩ := console
  exact ⟨_, executes.step_on present fun _ => rfl⟩

theorem OnConsole.step_of_exit (console : core.OnConsole writer)
    (executes : core.Executes (.debug Console.exit)) :
    ∃ host, core.step.value = { core.fetch.value with host := host, halted := true }.retire := by
  obtain ⟨calls, present⟩ := console
  exact ⟨_, executes.step_on present fun _ => rfl⟩

/-- The cycle of an instruction that the host has left to the program: its exception is taken and
nothing is written. -/
def LeftToProgram (core : Core) (exception : Exception) : Prop :=
  (∃ host, core.step.value =
      ({ core.fetch.value with host := host }.raise exception).value.retire) ∧
    Event.outputBytes core.step.events = []

theorem OnConsole.leftToProgram {kind : HookKind} {immediate : UInt32} {exception : Exception}
    (console : core.OnConsole writer) (executes : core.Executes instruction)
    (asks : ∀ core : Core, core.execute instruction = core.executeHook kind immediate exception)
    (request : instruction.request? core.fetch.value.registers =
      some ⟨kind, immediate, core.fetch.value.registers⟩)
    (unrequested :
      Console.requested? ⟨kind, immediate, core.fetch.value.registers⟩ = none) :
    core.LeftToProgram exception := by
  constructor
  · obtain ⟨calls, present⟩ := console
    have stepped := executes.step_on present asks
    simp only [Console.action_of_unrequested unrequested] at stepped
    exact ⟨_, stepped⟩
  · rw [output_step, executes.request?, request]
    exact console.hostOutput_of_unrequested unrequested

theorem OnConsole.leaves_syscall (console : core.OnConsole writer) {immediate : UInt32}
    (other : immediate ≠ Console.putCharacter) (executes : core.Executes (.syscall immediate)) :
    core.LeftToProgram (.syscall immediate) :=
  console.leftToProgram executes (fun _ => rfl) rfl (if_neg other)

theorem OnConsole.leaves_debug (console : core.OnConsole writer) {immediate : UInt32}
    (other : immediate ≠ Console.exit) (executes : core.Executes (.debug immediate)) :
    core.LeftToProgram (.debug immediate) :=
  console.leftToProgram executes (fun _ => rfl) rfl (if_neg other)

theorem Executes.printed_exit (exits : core.Executes (.debug Console.exit)) :
    core.printed = Console.exitBytes (core.fetch.value.registers.get .argument) := by
  unfold printed
  rw [exits]
  rfl

theorem OnConsole.halted_of_exit (console : core.OnConsole writer)
    (exits : core.Executes (.debug Console.exit)) : core.step.value.halted = true := by
  obtain ⟨host, same⟩ := console.step_of_exit exits
  rw [same]
  rfl

theorem OnConsole.steps_of_exit {cycle : Nat} (console : core.OnConsole writer)
    (exits : (core.after cycle).Executes (.debug Console.exit)) (more : Nat) :
    core.steps (cycle + 1 + more) = core.steps (cycle + 1) := by
  have halted := (console.after cycle).halted_of_exit exits
  rw [← after_succ_last] at halted
  have stays : (core.steps (cycle + 1)).value.steps more = pure (core.steps (cycle + 1)).value :=
    steps_of_halted halted more
  rw [steps_add]
  apply Traced.ext
  · rw [Traced.value_bind, stays, Traced.value_pure]
  · rw [Traced.events_bind, stays, Traced.events_pure, List.append_nil]

/-- The last bytes of a run are those of the line that ends the program. -/
theorem OnConsole.output_of_exit {cycle : Nat} (console : core.OnConsole .open)
    (exits : (core.after cycle).Executes (.debug Console.exit)) (more : Nat) :
    Event.outputBytes (core.steps (cycle + 1 + more)).events =
      Event.outputBytes (core.steps cycle).events ++
        Console.exitBytes ((core.after cycle).fetch.value.registers.get .argument) := by
  rw [console.steps_of_exit exits, output_steps_open console, output_steps_open console,
    List.range_succ, List.flatMap_append, List.flatMap_singleton, exits.printed_exit]

theorem OnConsole.exit_unique {cycle other : Nat} (console : core.OnConsole writer)
    (exits : (core.after cycle).Executes (.debug Console.exit))
    (otherExits : (core.after other).Executes (.debug Console.exit)) : other = cycle := by
  -- The core is halted after either cycle, so that neither comes after the other.
  have apart (first second : Nat) (firstExits : (core.after first).Executes (.debug Console.exit))
      (secondExits : (core.after second).Executes (.debug Console.exit)) : ¬first < second := by
    intro before
    obtain ⟨more, rfl⟩ := Nat.exists_eq_add_of_lt before
    have halted := (console.after first).halted_of_exit firstExits
    have same := congrArg Traced.value (console.steps_of_exit firstExits more)
    have last : core.after (first + more + 1) = (core.after first).step.value := by
      rw [← after_succ_last, Nat.add_right_comm]
      exact same
    rw [← last, secondExits.running] at halted
    cases halted
  exact Nat.le_antisymm (Nat.le_of_not_lt (apart _ _ exits otherExits))
    (Nat.le_of_not_lt (apart _ _ otherExits exits))

end Cycle

/-- The console prints what the program asks for and does not influence it. A run reaches the same
states whatever becomes of the bytes; where they can be written, they are those that its words
print. The end of a program prints the last of them, once, and the run does not go on. A request
that is serviced changes nothing but the console, and for any other its exception is taken. -/
theorem console_serves (core : Core) (calls : List HookCall) :
    (∀ (writer other : Console.Writer) (count : Nat),
      (core.withConsole other calls).after count =
        ((core.withConsole writer calls).after count).reporting (Console.report other)) ∧
    (∀ count : Nat,
      Event.outputBytes ((core.withConsole .open calls).steps count).events =
        (List.range count).flatMap fun cycle =>
          ((core.withConsole .open calls).after cycle).printed) ∧
    (∀ (writer : Console.Writer) (cycle : Nat),
      ((core.withConsole writer calls).after cycle).Executes (.debug Console.exit) →
      (∀ more : Nat, (core.withConsole writer calls).steps (cycle + 1 + more) =
        (core.withConsole writer calls).steps (cycle + 1)) ∧
      ∀ other : Nat,
        ((core.withConsole writer calls).after other).Executes (.debug Console.exit) →
          other = cycle) ∧
    (∀ cycle more : Nat,
      let reached := (core.withConsole .open calls).after cycle
      reached.Executes (.debug Console.exit) →
        Event.outputBytes ((core.withConsole .open calls).steps (cycle + 1 + more)).events =
          Event.outputBytes ((core.withConsole .open calls).steps cycle).events ++
            Console.exitBytes (reached.fetch.value.registers.get .argument)) ∧
    ∀ (writer : Console.Writer) (cycle : Nat),
      let reached := (core.withConsole writer calls).after cycle
      (reached.Executes (.syscall Console.putCharacter) →
        ∃ host, reached.step.value = { reached.fetch.value with host := host }.retire) ∧
      (reached.Executes (.debug Console.exit) →
        ∃ host, reached.step.value =
          { reached.fetch.value with host := host, halted := true }.retire) ∧
      (∀ immediate ≠ Console.putCharacter, reached.Executes (.syscall immediate) →
        reached.LeftToProgram (.syscall immediate)) ∧
      ∀ immediate ≠ Console.exit, reached.Executes (.debug immediate) →
        reached.LeftToProgram (.debug immediate) := by
  refine ⟨?_, ?_, ?_, ?_, ?_⟩
  · intro writer other count
    exact (core.withConsole writer calls).after_reporting (Console.report other) count
  · exact output_steps_open (core.onConsole_withConsole .open calls)
  · intro writer cycle exits
    have console := core.onConsole_withConsole writer calls
    exact ⟨console.steps_of_exit exits, fun other => console.exit_unique exits⟩
  · intro cycle more reached exits
    exact (core.onConsole_withConsole .open calls).output_of_exit exits more
  · intro writer cycle reached
    have console : reached.OnConsole writer := (core.onConsole_withConsole writer calls).after cycle
    exact ⟨console.step_of_putCharacter, console.step_of_exit,
      fun immediate other => console.leaves_syscall other,
      fun immediate other => console.leaves_debug other⟩

def greeting : Core :=
  let registers := (RegisterFile.cleared.set .scratch 0x41).set .argument 42
  { create 0 .empty with registers := registers, pipeline := ⟨0x7dadc0de, 0x78abcd00, 0⟩ }

theorem greeting_serves :
    Event.outputBytes ((greeting.withConsole .open []).steps 9).events =
        "A\na0=0000002a\n".toList.map Char.toUInt8 ∧
      ((greeting.withConsole .closed []).after 1).Executes (.debug Console.exit) ∧
      (greeting.withConsole .closed []).steps 9 = (greeting.withConsole .closed []).steps 2 ∧
      (greeting.withConsole .closed []).after 9 =
        ((greeting.withConsole .open []).after 9).reporting (Console.report .closed) ∧
      ∃ host, (greeting.withConsole .open []).step.value =
        { (greeting.withConsole .open []).fetch.value with host := host }.retire := by
  obtain ⟨independent, prints, ends, -, serves⟩ := console_serves greeting []
  have exits : ((greeting.withConsole .closed []).after 1).Executes (.debug Console.exit) := rfl
  refine ⟨?_, exits, (ends .closed 1 exits).1 7, independent .open .closed 9, ?_⟩
  · rw [prints]
    decide +kernel
  · exact (serves .open 0).1 rfl

end Core

end RiscBoard
