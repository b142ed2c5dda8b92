namespace Onboarding.Text

def split (mark : Char) : List Char → List (List Char)
  | [] => [[]]
  | c :: cs =>
    match split mark cs with
    | part :: parts => if c = mark then [] :: part :: parts else (c :: part) :: parts
    | [] => [[c]]

theorem split_ne_nil (mark : Char) (cs : List Char) : split mark cs ≠ [] := by
  cases cs with
  | nil => exact List.cons_ne_nil _ _
  | cons c cs =>
    rw [split]
    split
    · split
      · exact List.cons_ne_nil _ _
      · exact List.cons_ne_nil _ _
    · exact List.cons_ne_nil _ _

/-- A text without a mark is its only part. -/
theorem split_of_notMem {mark : Char} {cs : List Char} (h : mark ∉ cs) : split mark cs = [cs] := by
  induction cs with
  | nil => rfl
  | cons c cs ih =>
    have hc : c ≠ mark := fun heq => h (heq ▸ List.mem_cons_self)
    rw [split, ih fun hmem => h (List.mem_cons_of_mem c hmem)]
    exact if_neg hc

/-- The first part ends at the first mark. -/
theorem split_append_mark {mark : Char} {part : List Char} (h : mark ∉ part) (rest : List Char) :
    split mark (part ++ mark :: rest) = part :: split mark rest := by
  induction part with
  | nil =>
    obtain ⟨first, others, hsplit⟩ := List.exists_cons_of_ne_nil (split_ne_nil mark rest)
    rw [List.nil_append, split, hsplit]
    exact if_pos rfl
  | cons c part ih =>
    have hc : c ≠ mark := fun heq => h (heq ▸ List.mem_cons_self)
    have hpart : mark ∉ part := fun hmem => h (List.mem_cons_of_mem c hmem)
    rw [List.cons_append, split, ih hpart]
    exact if_neg hc

end Onboarding.Text
