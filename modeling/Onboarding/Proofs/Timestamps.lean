import Onboarding.Proofs.Dates
import Onboarding.Proofs.Numerals

namespace Onboarding

open Number Text DateTime

/-- One step of a reader. -/
theorem bind_of_eq_some {α β : Type} {x : Option α} {a : α} (h : x = some a)
    (f : α → Option β) : (x >>= f) = f a := by
  rw [h]
  rfl

/-- A leap second ends a minute: no other one has a text of its own. -/
def Instant.IsRegular (t : Instant) : Prop := t.isLeap = true → t.second % 60 = 59

namespace Instant

variable {ds rest : List Char}

theorem trimStart_cons {c : Char} (h : isBlank c = false) (rest : List Char) :
    trimStart (c :: rest) = c :: rest := by
  rw [trimStart, List.dropWhile_cons_of_neg (by simp [h])]

theorem takeWhile_isDigit (hdigits : ∀ c ∈ ds, c.isDigit = true)
    (hrest : ∀ c ∈ rest.head?, c.isDigit = false) : (ds ++ rest).takeWhile Char.isDigit = ds := by
  have hstop : rest.takeWhile Char.isDigit = [] := by
    cases rest with
    | nil => rfl
    | cons c rest => exact List.takeWhile_cons_of_neg (by simp [hrest c rfl])
  rw [List.takeWhile_append_of_pos hdigits, hstop, List.append_nil]

/-- Digits are read as far as they go. -/
theorem readField_append {width : Nat} (hdigits : ∀ c ∈ ds, c.isDigit = true) (hne : ds ≠ [])
    (hwidth : ds.length ≤ width) (hrest : ∀ c ∈ rest.head?, c.isDigit = false) :
    readField width (ds ++ rest) = some (ofDigits ds, rest) := by
  have htrim : trimStart (ds ++ rest) = ds ++ rest := by
    obtain ⟨c, ds, rfl⟩ := List.exists_cons_of_ne_nil hne
    exact trimStart_cons (isBlank_of_isDigit (hdigits c (by simp))) _
  -- Reading may also end because the field is full.
  have hrest' : ∀ c ∈ (rest.take (width - ds.length)).head?, c.isDigit = false := by
    intro c hc
    rw [List.head?_take] at hc
    split_ifs at hc
    · cases hc
    · exact hrest c hc
  have htake : ((ds ++ rest).take width).takeWhile Char.isDigit = ds := by
    rw [List.take_append, List.take_of_length_le hwidth, takeWhile_isDigit hdigits hrest']
  unfold readField
  simp only [htrim, htake, List.isEmpty_eq_false_iff.2 hne, List.drop_left]
  rfl

theorem readField_padded {width n : Nat} (hwidth : 0 < width) (h : n < 10 ^ width)
    (hrest : ∀ c ∈ rest.head?, c.isDigit = false) :
    readField width (padded width n ++ rest) = some (n, rest) := by
  rw [readField_append (fun c hc => isDigit_of_mem_padded hc) padded_ne_nil
    (length_padded hwidth h).le hrest, ofDigits_padded]

theorem readMark_cons {mark : Char} (h : isBlank mark = false) (rest : List Char) :
    readMark mark (mark :: rest) = some rest := by
  rw [readMark, trimStart_cons h]
  exact if_pos rfl

theorem readYear_append (year : Int) (hrest : ∀ c ∈ rest.head?, c.isDigit = false) :
    readYear (yearText year ++ rest) = some (year, rest) := by
  obtain ⟨c, ds, hpadded⟩ := List.exists_cons_of_ne_nil (@padded_ne_nil 4 year.natAbs)
  have hc : c.isDigit = true := isDigit_of_mem_padded (by rw [hpadded]; exact List.mem_cons_self)
  have hany : (padded 4 year.natAbs ++ rest).head?.any Char.isDigit = true := by
    rw [hpadded]
    exact hc
  -- All that follows a sign may be digits.
  have hfield : readField (padded 4 year.natAbs ++ rest).length (padded 4 year.natAbs ++ rest) =
      some (year.natAbs, rest) := by
    rw [readField_append (fun c hc => isDigit_of_mem_padded hc) padded_ne_nil (by simp) hrest,
      ofDigits_padded]
  unfold yearText
  split_ifs with hfour hnegative
  · have habs : year.toNat = year.natAbs := by omega
    have hread : readField 4 (padded 4 year.natAbs ++ rest) = some (year.natAbs, rest) :=
      readField_padded (by decide) (by omega) hrest
    have htrim : trimStart (padded 4 year.natAbs ++ rest) = padded 4 year.natAbs ++ rest := by
      rw [hpadded]
      exact trimStart_cons (isBlank_of_isDigit hc) _
    rw [habs]
    unfold readYear
    rw [htrim]
    split
    · next heq =>
      rw [hpadded] at heq
      cases heq
      cases hc
    · next heq =>
      rw [hpadded] at heq
      cases heq
      cases hc
    · simp only [hread, Option.map_some]
      congr 2
      omega
  all_goals
    unfold readYear
    rw [List.cons_append, trimStart_cons (by decide)]
    simp only [hany, if_true, hfield, Option.map_some]
    congr 2
    omega

theorem readFraction_digits (hdigits : ∀ c ∈ ds, c.isDigit = true) (hne : ds ≠ [])
    (hlength : ds.length ≤ 9) (hrest : ∀ c ∈ rest.head?, c.isDigit = false) :
    readFraction ('.' :: ds ++ rest) = some (ofDigits ds * 10 ^ (9 - ds.length), rest) := by
  have htake := takeWhile_isDigit hdigits hrest
  rw [List.cons_append]
  unfold readFraction
  simp only [htake, List.isEmpty_eq_false_iff.2 hne, List.take_of_length_le hlength,
    List.drop_left]
  rfl

/-- Three, six or nine digits are enough for the nanoseconds that they are chosen for. -/
theorem readFraction_append {nanosecond : Nat} (h : nanosecond < nanosPerSecond)
    (hrest : ∀ c ∈ rest.head?, c.isDigit = false ∧ c ≠ '.') :
    readFraction (fractionText nanosecond ++ rest) = some (nanosecond, rest) := by
  have hstop : ∀ c ∈ rest.head?, c.isDigit = false := fun c hc => (hrest c hc).1
  have hread : ∀ width n, 0 < width → width ≤ 9 → n < 10 ^ width →
      readFraction ('.' :: padded width n ++ rest) = some (n * 10 ^ (9 - width), rest) := by
    intro width n hwidth hwidth' hn
    have hlength := length_padded hwidth hn
    rw [readFraction_digits (fun c hc => isDigit_of_mem_padded hc) padded_ne_nil (by omega) hstop,
      ofDigits_padded, hlength]
  have hsecond : nanosPerSecond = 1000000000 := rfl
  unfold fractionText
  -- The text leaves out zeros at the end, which reading makes up for.
  split_ifs with hzero hmillis hmicros
  · subst hzero
    unfold readFraction
    split
    · next r heq => exact absurd rfl (hrest '.' (by rw [List.nil_append] at heq; rw [heq]; rfl)).2
    · rfl
  · rw [hread 3 _ (by decide) (by decide) (by omega)]
    congr 2
    omega
  · rw [hread 6 _ (by decide) (by decide) (by omega)]
    congr 2
    omega
  · rw [hread 9 _ (by decide) (by decide) (by omega)]
    congr 2
    omega

theorem head_fractionText (nanosecond : Nat) :
    ∀ c ∈ (fractionText nanosecond ++ ['Z']).head?, c.isDigit = false := by
  intro c hc
  unfold fractionText at hc
  split_ifs at hc <;> cases hc <;> rfl

/-- All parts of a date and a time are read from their text in turn. -/
theorem ofText?_text_eq {d : DateTime} (hmonth : d.date.month < 100) (hday : d.date.day < 100)
    (hhour : d.hour < 100) (hminute : d.minute < 100) (hsecond : d.second < 100)
    (hnanosecond : d.nanosecond < nanosPerSecond) :
    ofText? (String.ofList (d.text ['T'] ['Z'])) = d.toInstant? 0 := by
  have hmark : ∀ {c : Char} (r : List Char), c.isDigit = false →
      ∀ e ∈ (c :: r).head?, e.isDigit = false := by
    intro c r hc e he
    cases he
    exact hc
  have hfield : ∀ {n : Nat} {c : Char} (r : List Char), n < 100 → c.isDigit = false →
      readField 2 (padded 2 n ++ c :: r) = some (n, c :: r) :=
    fun r hn hc => readField_padded (by decide) hn (hmark r hc)
  have hlast : readField 2 (padded 2 d.second ++ (fractionText d.nanosecond ++ ['Z'])) =
      some (d.second, fractionText d.nanosecond ++ ['Z']) :=
    readField_padded (by decide) hsecond (head_fractionText d.nanosecond)
  have hfraction : readFraction (fractionText d.nanosecond ++ ['Z']) =
      some (d.nanosecond, ['Z']) := by
    apply readFraction_append hnanosecond
    intro c hc
    cases hc
    decide
  have htext : d.text ['T'] ['Z'] = yearText d.date.year ++ '-' :: (padded 2 d.date.month ++
      '-' :: (padded 2 d.date.day ++ 'T' :: (padded 2 d.hour ++ ':' :: (padded 2 d.minute ++
        ':' :: (padded 2 d.second ++ (fractionText d.nanosecond ++ ['Z'])))))) := by
    simp only [DateTime.text, List.append_assoc, List.cons_append, List.nil_append]
  have hdash : isBlank '-' = false := rfl
  have hcolon : isBlank ':' = false := rfl
  unfold ofText?
  rw [String.toList_ofList, htext]
  -- Each step takes its part off the front and leaves the rest to the next.
  refine (bind_of_eq_some (readYear_append _ (hmark _ rfl)) _).trans ?_
  refine (bind_of_eq_some (readMark_cons hdash _) _).trans ?_
  refine (bind_of_eq_some (hfield _ hmonth rfl) _).trans ?_
  refine (bind_of_eq_some (readMark_cons hdash _) _).trans ?_
  refine (bind_of_eq_some (hfield _ hday rfl) _).trans ?_
  refine (bind_of_eq_some (hfield _ hhour rfl) _).trans ?_
  refine (bind_of_eq_some (readMark_cons hcolon _) _).trans ?_
  refine (bind_of_eq_some (hfield _ hminute rfl) _).trans ?_
  refine (bind_of_eq_some (readMark_cons hcolon _) _).trans ?_
  refine (bind_of_eq_some hlast _).trans ?_
  exact bind_of_eq_some hfraction _

variable {t : Instant}

theorem ofParts?_self (t : Instant) : ofParts? t.second t.nanosecond = some t :=
  dif_pos ⟨t.nanosecond_lt, t.first_le, t.le_last⟩

theorem year_ofInstant (t : Instant) :
    -262143 ≤ (ofInstant t).date.year ∧ (ofInstant t).date.year ≤ 262142 := by
  have hfirst : firstSecond / 86400 ≤ t.second / 86400 :=
    Int.ediv_le_ediv (by decide) t.first_le
  have hlast : t.second / 86400 ≤ lastSecond / 86400 :=
    Int.ediv_le_ediv (by decide) t.le_last
  exact Date.year_ofDayNumber hfirst hlast

/-- What a clock shows in a minute goes up to 60, and this only in its leap second. -/
theorem second_ofInstant (h : t.IsRegular) : (ofInstant t).second =
    if t.isLeap then 60 else (t.second % 60).toNat := by
  have hday : (t.second % 86400).toNat % 60 = (t.second % 60).toNat := by omega
  change (t.second % 86400).toNat % 60 + (if t.isLeap then 1 else 0) = _
  rw [hday]
  split_ifs with hleap
  · rw [h hleap]
    rfl
  · rfl

/-- A date and a time are those of one instant, where its leap second can be told. -/
theorem toInstant?_ofInstant (h : t.IsRegular) : (ofInstant t).toInstant? 0 = some t := by
  have hvalid : (ofInstant t).date.isValid = true := Date.isValid_ofDayNumber _
  have hday : (ofInstant t).date.dayNumber = t.second / 86400 := Date.dayNumber_ofDayNumber _
  have hhour : (ofInstant t).hour = (t.second % 86400).toNat / 3600 := rfl
  have hminute : (ofInstant t).minute = (t.second % 86400).toNat / 60 % 60 := rfl
  have hnanosecond : (ofInstant t).nanosecond = t.nanosecond % nanosPerSecond := rfl
  have hsecond := second_ofInstant h
  have hlt := t.nanosecond_lt
  have hle : (ofInstant t).second ≤ 60 := by
    rw [hsecond]
    split_ifs <;> omega
  -- What was added for the leap second is taken off again.
  have hsixty : (ofInstant t).second = 60 ↔ t.isLeap = true := by
    rw [hsecond]
    split_ifs with hleap
    · simp [hleap]
    · have hne : (t.second % 60).toNat ≠ 60 := by omega
      simp [hleap, hne]
  have hin : ((ofInstant t).date.isValid && (ofInstant t).hour < 24 && (ofInstant t).minute < 60 &&
      (ofInstant t).second ≤ 60 &&
      (-262143 ≤ (ofInstant t).date.year && (ofInstant t).date.year ≤ 262142)) = true := by
    obtain ⟨hyear, hyear'⟩ := t.year_ofInstant
    simp only [Bool.and_eq_true, decide_eq_true_eq]
    refine ⟨⟨⟨⟨hvalid, ?_⟩, ?_⟩, hle⟩, hyear, hyear'⟩
    · omega
    · omega
  unfold toInstant?
  rw [if_pos hin]
  simp only [hday, hsixty]
  have htime : t.second / 86400 * 86400 + (((ofInstant t).hour * 3600 + (ofInstant t).minute * 60 +
      ((ofInstant t).second - if t.isLeap = true then 1 else 0) : Nat) : Int) - 0 = t.second := by
    rw [hhour, hminute, hsecond]
    split_ifs with hleap
    · have hlast := h hleap
      omega
    · omega
  have hwhole : (ofInstant t).nanosecond + (if t.isLeap = true then 1 else 0) * nanosPerSecond =
      t.nanosecond := by
    have hbillion : nanosPerSecond = 1000000000 := rfl
    have hiff : t.isLeap = true ↔ nanosPerSecond ≤ t.nanosecond := decide_eq_true_iff
    rw [hbillion] at hiff hlt
    rw [hnanosecond, hbillion]
    simp only [hiff]
    split_ifs <;> omega
  rw [htime, hwhole]
  exact ofParts?_self t

/-- A regular instant is read from its text. -/
theorem ofText?_text (h : t.IsRegular) : ofText? t.text = some t := by
  have hvalid : (ofInstant t).date.isValid = true := Date.isValid_ofDayNumber _
  simp only [Date.isValid, Bool.and_eq_true, decide_eq_true_eq] at hvalid
  obtain ⟨⟨⟨-, hmonth⟩, -⟩, hday⟩ := hvalid
  have hday' : (ofInstant t).date.day ≤ 31 := by
    unfold Date.daysInMonth at hday
    split_ifs at hday <;> omega
  have hhour : (ofInstant t).hour = (t.second % 86400).toNat / 3600 := rfl
  have hminute : (ofInstant t).minute = (t.second % 86400).toNat / 60 % 60 := rfl
  have hsecond : (ofInstant t).second < 100 := by
    rw [second_ofInstant h]
    split_ifs <;> omega
  have hnanosecond : (ofInstant t).nanosecond < nanosPerSecond := Nat.mod_lt _ (by decide)
  rw [text, ofText?_text_eq (by omega) (by omega) (by omega) (by omega) hsecond hnanosecond]
  exact toInstant?_ofInstant h

/-- Clocks are ahead of universal time by whole minutes. -/
theorem readOffset_emod {cs : List Char} {offset : Int} (h : readOffset cs = some (offset, rest)) :
    offset % 60 = 0 := by
  unfold readOffset at h
  split at h
  · cases h
  · dsimp only at h
    split_ifs at h <;> cases h <;> omega

theorem readFraction_lt {cs : List Char} {nanosecond : Nat}
    (h : readFraction cs = some (nanosecond, rest)) : nanosecond < nanosPerSecond := by
  unfold readFraction at h
  split at h
  · next r =>
    dsimp only at h
    split_ifs at h with hnone
    cases h
    have hdigits : ∀ c ∈ (r.takeWhile Char.isDigit).take 9, c.isDigit = true :=
      fun c hc => List.all_eq_true.1 List.all_takeWhile c (List.mem_of_mem_take hc)
    have hlength : ((r.takeWhile Char.isDigit).take 9).length ≤ 9 := List.length_take_le _ _
    generalize (r.takeWhile Char.isDigit).take 9 = kept at hdigits hlength ⊢
    calc ofDigits kept * 10 ^ (9 - kept.length)
      _ < 10 ^ kept.length * 10 ^ (9 - kept.length) :=
        Nat.mul_lt_mul_of_pos_right (ofDigits_lt hdigits) (by positivity)
      _ = nanosPerSecond := by
        rw [← pow_add, Nat.add_sub_cancel' hlength]
        rfl
  · cases h
    decide

theorem isRegular_of_toInstant? {d : DateTime} {offset : Int} (hoffset : offset % 60 = 0)
    (hnanosecond : d.nanosecond < nanosPerSecond) (h : d.toInstant? offset = some t) :
    t.IsRegular := by
  intro hleap
  unfold toInstant? ofParts? at h
  dsimp only at h
  split_ifs at h with hfields hsixty hparts
  · cases h
    simp only
    omega
  · cases h
    exact absurd (decide_eq_true_iff.1 hleap) (by simp only; omega)

/-- Whatever is read from a text is regular. -/
theorem isRegular_of_ofText? {s : String} (h : ofText? s = some t) : t.IsRegular := by
  -- Only the fraction and the offset bear on the leap second.
  unfold ofText? at h
  obtain ⟨⟨year, r⟩, -, h⟩ := Option.bind_eq_some_iff.1 h
  obtain ⟨r, -, h⟩ := Option.bind_eq_some_iff.1 h
  obtain ⟨⟨month, r⟩, -, h⟩ := Option.bind_eq_some_iff.1 h
  obtain ⟨r, -, h⟩ := Option.bind_eq_some_iff.1 h
  obtain ⟨⟨day, r⟩, -, h⟩ := Option.bind_eq_some_iff.1 h
  cases r with
  | nil => cases h
  | cons c r =>
    dsimp only at h
    split_ifs at h with hmark
    · obtain ⟨r, -, h⟩ := Option.bind_eq_some_iff.1 h
      obtain ⟨⟨hour, r⟩, -, h⟩ := Option.bind_eq_some_iff.1 h
      obtain ⟨r, -, h⟩ := Option.bind_eq_some_iff.1 h
      obtain ⟨⟨minute, r⟩, -, h⟩ := Option.bind_eq_some_iff.1 h
      obtain ⟨r, -, h⟩ := Option.bind_eq_some_iff.1 h
      obtain ⟨⟨second, r⟩, -, h⟩ := Option.bind_eq_some_iff.1 h
      obtain ⟨⟨nanosecond, r⟩, hfraction, h⟩ := Option.bind_eq_some_iff.1 h
      obtain ⟨⟨offset, r⟩, hoffset, h⟩ := Option.bind_eq_some_iff.1 h
      dsimp only at h
      split_ifs at h with hend
      exact isRegular_of_toInstant? (readOffset_emod hoffset) (readFraction_lt hfraction) h
    · cases h

/-- The instants that are read back from their texts are the regular ones. -/
theorem ofText?_text_iff : ofText? t.text = some t ↔ t.IsRegular :=
  ⟨isRegular_of_ofText?, ofText?_text⟩

end Instant

end Onboarding
