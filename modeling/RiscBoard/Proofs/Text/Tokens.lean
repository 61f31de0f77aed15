/-!
Texts put together from pieces. Where a piece ends is seen from the first character that cannot
belong to it, so the pieces can be told from the whole.
-/

namespace RiscBoard.Text

/-- A rest that a piece of `inside` characters cannot run into. -/
def Breaks (inside : Char → Bool) (rest : List Char) : Prop :=
  ∀ c ∈ rest.head?, inside c = false

variable {inside : Char → Bool} {first second rest others : List Char}

theorem breaks_nil : Breaks inside [] := by
  intro c impossible
  cases impossible

theorem breaks_cons {c : Char} (mark : inside c = false) : Breaks inside (c :: rest) := by
  intro _ same
  cases same
  exact mark

/-- Two pieces with their rests are the same text only if the pieces and the rests are the same. -/
theorem append_inj_of_breaks (firstInside : ∀ c ∈ first, inside c = true)
    (secondInside : ∀ c ∈ second, inside c = true) (restBreaks : Breaks inside rest)
    (othersBreak : Breaks inside others) (same : first ++ rest = second ++ others) :
    first = second ∧ rest = others := by
  induction first generalizing second with
  | nil =>
    cases second with
    | nil => exact ⟨rfl, same⟩
    | cons c more =>
      have ends : inside c = false := restBreaks c (by rw [← List.nil_append rest, same]; rfl)
      rw [secondInside c List.mem_cons_self] at ends
      cases ends
  | cons c more ih =>
    cases second with
    | nil =>
      have ends : inside c = false := othersBreak c (by rw [← List.nil_append others, ← same]; rfl)
      rw [firstInside c List.mem_cons_self] at ends
      cases ends
    | cons d further =>
      rw [List.cons_append, List.cons_append, List.cons.injEq] at same
      obtain ⟨rfl, same⟩ := same
      obtain ⟨rfl, rests⟩ := ih (fun c later => firstInside c (List.mem_cons_of_mem _ later))
        (fun c later => secondInside c (List.mem_cons_of_mem _ later)) same
      exact ⟨rfl, rests⟩

section Separated

variable {mark : Char} {gap : List Char} {pieces : List (List Char)}

def continued (mark : Char) (gap : List Char) (pieces : List (List Char)) : List Char :=
  pieces.flatMap (mark :: gap ++ ·)

theorem continued_cons (piece : List Char) (pieces : List (List Char)) :
    continued mark gap (piece :: pieces) =
      mark :: gap ++ (piece ++ continued mark gap pieces) := by
  rw [continued, List.flatMap_cons, List.append_assoc, continued]

theorem intercalate_cons (piece : List Char) (pieces : List (List Char)) :
    (mark :: gap).intercalate (piece :: pieces) = piece ++ continued mark gap pieces := by
  induction pieces generalizing piece with
  | nil => rw [List.intercalate_singleton, continued, List.flatMap_nil, List.append_nil]
  | cons next rest ih =>
    rw [List.intercalate_cons_cons, ih, continued_cons, List.append_assoc]

theorem breaks_continued (pieces : List (List Char)) :
    Breaks (· != mark) (continued mark gap pieces) := by
  cases pieces with
  | nil => exact breaks_nil
  | cons piece rest => exact breaks_cons (bne_self_eq_false mark)

theorem unmarked {piece : List Char} (free : mark ∉ piece) : ∀ c ∈ piece, (c != mark) = true := by
  intro c inside
  exact bne_iff_ne.2 fun same => free (same ▸ inside)

theorem continued_inj {others : List (List Char)} (piecesFree : ∀ piece ∈ pieces, mark ∉ piece)
    (othersFree : ∀ piece ∈ others, mark ∉ piece)
    (same : continued mark gap pieces = continued mark gap others) : pieces = others := by
  induction pieces generalizing others with
  | nil =>
    cases others with
    | nil => rfl
    | cons other more => cases same
  | cons piece rest ih =>
    cases others with
    | nil => cases same
    | cons other more =>
      rw [List.forall_mem_cons] at piecesFree othersFree
      rw [continued_cons, continued_cons, List.append_cancel_left_eq] at same
      obtain ⟨rfl, rests⟩ := append_inj_of_breaks (unmarked piecesFree.1) (unmarked othersFree.1)
        (breaks_continued rest) (breaks_continued more) same
      rw [ih piecesFree.2 othersFree.2 rests]

/-- Pieces without the separator's mark can be told from their sequence. -/
theorem intercalate_inj {others : List (List Char)} (piecesSome : pieces ≠ [])
    (othersSome : others ≠ []) (piecesFree : ∀ piece ∈ pieces, mark ∉ piece)
    (othersFree : ∀ piece ∈ others, mark ∉ piece)
    (same : (mark :: gap).intercalate pieces = (mark :: gap).intercalate others) :
    pieces = others := by
  obtain ⟨piece, rest, rfl⟩ := List.exists_cons_of_ne_nil piecesSome
  obtain ⟨other, more, rfl⟩ := List.exists_cons_of_ne_nil othersSome
  rw [List.forall_mem_cons] at piecesFree othersFree
  rw [intercalate_cons, intercalate_cons] at same
  obtain ⟨rfl, rests⟩ := append_inj_of_breaks (unmarked piecesFree.1) (unmarked othersFree.1)
    (breaks_continued rest) (breaks_continued more) same
  rw [continued_inj piecesFree.2 othersFree.2 rests]

end Separated

end RiscBoard.Text
