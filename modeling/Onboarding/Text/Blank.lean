namespace Onboarding.Text

def isBlank (c : Char) : Bool :=
  let n := c.toNat
  (0x09 ≤ n && n ≤ 0x0d) || n == 0x20 || n == 0x85 || n == 0xa0 || n == 0x1680 ||
    (0x2000 ≤ n && n ≤ 0x200a) || n == 0x2028 || n == 0x2029 || n == 0x202f ||
    n == 0x205f || n == 0x3000

def trimStart (cs : List Char) : List Char := cs.dropWhile isBlank

def trimEnd (cs : List Char) : List Char := (cs.reverse.dropWhile isBlank).reverse

def trim (cs : List Char) : List Char := trimEnd (trimStart cs)

def trimmed (s : String) : String := String.ofList (trim s.toList)

/-- A trimmed text does not end in white space. -/
theorem isBlank_of_mem_getLast?_trim {cs : List Char} {c : Char}
    (h : c ∈ (trim cs).getLast?) : isBlank c = false := by
  rw [trim, trimEnd, List.getLast?_reverse] at h
  have hd := List.head?_dropWhile_not isBlank (trimStart cs).reverse
  rw [Option.mem_def] at h
  simpa [h] using hd

/-- What is trimmed off is white space, and no more of it is left at either end. -/
theorem trim_eq_iff {cs t : List Char} : trim cs = t ↔
    (∃ front back, cs = front ++ t ++ back ∧ (∀ c ∈ front, isBlank c = true) ∧
      ∀ c ∈ back, isBlank c = true) ∧
    (∀ c ∈ t.head?, isBlank c = false) ∧ ∀ c ∈ t.getLast?, isBlank c = false := by
  constructor
  · rintro rfl
    have hstart : cs = cs.takeWhile isBlank ++ trimStart cs := List.takeWhile_append_dropWhile.symm
    have hend : trimStart cs =
        trim cs ++ ((trimStart cs).reverse.takeWhile isBlank).reverse := by
      rw [trim, trimEnd, ← List.reverse_append, List.takeWhile_append_dropWhile,
        List.reverse_reverse]
    refine ⟨⟨cs.takeWhile isBlank, ((trimStart cs).reverse.takeWhile isBlank).reverse, ?_, ?_, ?_⟩,
      ?_, fun c hc => isBlank_of_mem_getLast?_trim hc⟩
    · rw [List.append_assoc, ← hend]
      exact hstart
    · intro c hc
      exact List.all_eq_true.1 List.all_takeWhile c hc
    · intro c hc
      exact List.all_eq_true.1 List.all_takeWhile c (List.mem_reverse.1 hc)
    · -- The first character that is left is the first one that was no white space.
      intro c hc
      have hhead : c ∈ (trimStart cs).head? := by
        rw [hend, List.head?_append, Option.mem_def.1 hc]
        rfl
      have hnot := List.head?_dropWhile_not isBlank cs
      rw [show cs.dropWhile isBlank = trimStart cs from rfl, Option.mem_def.1 hhead] at hnot
      simpa using hnot
  · rintro ⟨⟨front, back, rfl, hfront, hback⟩, hhead, hlast⟩
    have hback' : ∀ c ∈ back.reverse, isBlank c = true := fun c hc =>
      hback c (List.mem_reverse.1 hc)
    rw [List.append_assoc, trim, trimStart, List.dropWhile_append_of_pos hfront]
    cases t with
    | nil =>
      have hnone : back.dropWhile isBlank = [] := by
        rw [← List.append_nil back, List.dropWhile_append_of_pos hback]
        rfl
      rw [List.nil_append, hnone]
      rfl
    | cons c t =>
      have hc : ¬isBlank c = true := by simp [hhead c rfl]
      rw [List.cons_append, List.dropWhile_cons_of_neg hc, trimEnd, ← List.cons_append,
        List.reverse_append, List.dropWhile_append_of_pos hback']
      have hkept : (c :: t).reverse.dropWhile isBlank = (c :: t).reverse := by
        have hfirst := hlast
        rw [List.getLast?_eq_head?_reverse] at hfirst
        cases hr : (c :: t).reverse with
        | nil => rfl
        | cons d r =>
          rw [hr] at hfirst
          exact List.dropWhile_cons_of_neg (by simp [hfirst d rfl])
      rw [hkept, List.reverse_reverse]

/-- A text that neither begins nor ends with white space stays as it is. -/
theorem trim_eq_self {cs : List Char} (hhead : ∀ c ∈ cs.head?, isBlank c = false)
    (hlast : ∀ c ∈ cs.getLast?, isBlank c = false) : trim cs = cs := by
  apply trim_eq_iff.2
  exact ⟨⟨[], [], by simp, by simp, by simp⟩, hhead, hlast⟩

end Onboarding.Text
