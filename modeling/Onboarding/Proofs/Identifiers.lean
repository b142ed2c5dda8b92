import Onboarding.Did
import Onboarding.Text.Split

namespace Onboarding

theorem isMethodChar_iff {c : Char} :
    isMethodChar c = true ↔ ('a' ≤ c ∧ c ≤ 'z') ∨ ('0' ≤ c ∧ c ≤ '9') := by
  have hlower : c.isLower = (decide ('a' ≤ c) && decide (c ≤ 'z')) := rfl
  have hdigit : c.isDigit = (decide ('0' ≤ c) && decide (c ≤ '9')) := rfl
  rw [isMethodChar, hlower, hdigit]
  simp only [Bool.or_eq_true, Bool.and_eq_true, decide_eq_true_eq]

theorem colon_notMem {method : List Char} (h : ∀ c ∈ method, isMethodChar c = true) :
    ':' ∉ method := by
  intro hmem
  have hcolon := h ':' hmem
  revert hcolon
  decide

namespace Did

variable {raw other method specific : String} {did : Did}

/-- The parts of an identifier are found again in its text. -/
theorem parts?_append {method : List Char} (h : ':' ∉ method) (specific : List Char) :
    parts? ("did:".toList ++ method ++ ':' :: specific) = some (method, specific) := by
  have hbefore : ∀ c ∈ method, decide (c ≠ ':') = true := by
    intro c hc
    apply decide_eq_true
    rintro rfl
    exact h hc
  have hdrop : (method ++ ':' :: specific).dropWhile (· ≠ ':') = ':' :: specific := by
    rw [List.dropWhile_append_of_pos hbefore, List.dropWhile_cons_of_neg (by simp)]
  have htake : (method ++ ':' :: specific).takeWhile (· ≠ ':') = method := by
    rw [List.takeWhile_append_of_pos hbefore, List.takeWhile_cons_of_neg (by simp),
      List.append_nil]
  have hcs : "did:".toList ++ method ++ ':' :: specific =
      'd' :: 'i' :: 'd' :: ':' :: (method ++ ':' :: specific) := List.append_assoc _ _ _
  rw [hcs]
  simp only [parts?, hdrop, htake]

theorem eq_of_parts? {cs method specific : List Char} (h : parts? cs = some (method, specific)) :
    cs = "did:".toList ++ method ++ ':' :: specific := by
  unfold parts? at h
  split at h
  · next rest =>
    split at h
    · cases h
    · next c specific hdrop =>
      cases h
      have hc : c = ':' := by
        have hhead := List.head?_dropWhile_not (· ≠ ':') rest
        rw [hdrop] at hhead
        simpa using hhead
      -- What was cut at the first colon is put together again.
      have hrest := List.takeWhile_append_dropWhile (p := (· ≠ ':')) (l := rest)
      rw [hdrop, hc] at hrest
      rw [List.append_assoc, hrest]
      rfl
  · cases h

theorem toList_text (did : Did) :
    did.text.toList = "did:".toList ++ did.method.toList ++ ':' :: did.specific.toList := by
  simp [text]

/-- An identifier that was read is the text without the white space around it. -/
theorem text_of_parse_eq_ok (h : parse raw = .ok did) : did.text = Text.trimmed raw := by
  unfold parse at h
  split at h
  · cases h
  · next method specific hparts =>
    split at h
    · cases h
      change "did:" ++ String.ofList method ++ ":" ++ String.ofList specific =
        String.ofList (Text.trim raw.toList)
      rw [eq_of_parts? hparts]
      apply String.toList_injective
      simp
    · cases h

theorem parse_of_trim_eq (ht : Text.trim other.toList = Text.trim raw.toList)
    (h : parse raw = .ok did) : parse other = .ok did := by
  unfold parse at h ⊢
  split at h
  · cases h
  · next method specific hparts =>
    split at h
    · next ok =>
      -- Only an error would tell the one text from the other.
      rw [← ht] at hparts
      split
      · next hnone =>
        rw [hparts] at hnone
        cases hnone
      · next m s hsome =>
        rw [hparts] at hsome
        cases hsome
        rw [dif_pos ok]
        exact h
    · cases h

/-- Texts name the same participant exactly if they are the same up to white space around them. -/
theorem parse_eq_ok_iff (h : parse raw = .ok did) :
    parse other = .ok did ↔ Text.trimmed other = Text.trimmed raw := by
  constructor
  · intro hother
    rw [← text_of_parse_eq_ok hother, text_of_parse_eq_ok h]
  · intro ht
    have hlist := congrArg String.toList ht
    simp only [Text.trimmed, String.toList_ofList] at hlist
    exact parse_of_trim_eq hlist h

/-- A text that is refused is quoted as it was given. -/
theorem raw_of_parse_eq_error {error : InvalidDid} (h : parse raw = .error error) :
    error.raw = raw := by
  unfold parse at h
  split at h
  · cases h
    rfl
  · split at h
    · cases h
    · cases h
      rfl

/-- An identifier neither begins nor ends with white space. -/
theorem trim_text (did : Did) : Text.trim did.text.toList = did.text.toList := by
  apply Text.trim_eq_self
  · intro c hc
    rw [toList_text] at hc
    cases hc
    rfl
  · intro c hc
    have hlast : did.specific.toList.getLast? = some c := by
      have hne := did.wellFormed.specific_ne_nil
      rw [toList_text, List.getLast?_append, List.getLast?_cons_of_ne_nil hne,
        List.getLast?_eq_some_getLast hne, Option.some_or] at hc
      rw [List.getLast?_eq_some_getLast hne]
      exact hc
    exact did.wellFormed.specific_end c hlast

theorem parse_text (did : Did) : parse did.text = .ok did := by
  have hwf := did.wellFormed
  have hparts : parts? (Text.trim did.text.toList) =
      some (did.method.toList, did.specific.toList) := by
    rw [trim_text, toList_text]
    exact parts?_append (colon_notMem hwf.method_chars) _
  have hok : did.method.toList ≠ [] ∧ did.method.toList.all isMethodChar = true ∧
      did.specific.toList ≠ [] :=
    ⟨hwf.method_ne_nil, List.all_eq_true.2 hwf.method_chars, hwf.specific_ne_nil⟩
  unfold parse
  split
  · next hnone =>
    rw [hparts] at hnone
    cases hnone
  · next m s hsome =>
    rw [hparts] at hsome
    cases hsome
    simp only [dif_pos hok, String.ofList_toList]

/-- The method is what stands between the first two of all colons. -/
theorem split_text (did : Did) :
    (Text.split ':' did.text.toList)[1]? = some did.method.toList := by
  have hmethod := colon_notMem did.wellFormed.method_chars
  have hscheme : ':' ∉ "did".toList := by decide
  have hsplit : did.text.toList =
      "did".toList ++ ':' :: (did.method.toList ++ ':' :: did.specific.toList) := by
    simp [text]
  rw [hsplit, Text.split_append_mark hscheme, Text.split_append_mark hmethod]
  rfl

/-- Without the white space around it, a text is the identifier of these parts. -/
structure Spells (raw method specific : String) : Prop where
  trimmed : Text.trimmed raw = "did:" ++ method ++ ":" ++ specific
  method_ne : method ≠ ""
  method_chars : ∀ c ∈ method.toList, ('a' ≤ c ∧ c ≤ 'z') ∨ ('0' ≤ c ∧ c ≤ '9')
  specific_ne : specific ≠ ""

/-- A text that is read spells the identifier. -/
theorem spells_of_parse_eq_ok (h : parse raw = .ok did) : Spells raw did.method did.specific where
  trimmed := (text_of_parse_eq_ok h).symm
  method_ne := fun heq => did.wellFormed.method_ne_nil (by rw [heq]; rfl)
  method_chars := fun c hc => isMethodChar_iff.1 (did.wellFormed.method_chars c hc)
  specific_ne := fun heq => did.wellFormed.specific_ne_nil (by rw [heq]; rfl)

theorem Spells.wellFormed (h : Spells raw method specific) :
    WellFormed method.toList specific.toList := by
  have hspecific : specific.toList ≠ [] := by
    intro hnil
    exact h.specific_ne (String.toList_injective hnil)
  have htrim : Text.trim raw.toList = "did:".toList ++ method.toList ++ ":".toList ++
      specific.toList := by
    have hlist := congrArg String.toList h.trimmed
    simpa [Text.trimmed] using hlist
  refine ⟨?_, ?_, hspecific, ?_⟩
  · intro hnil
    exact h.method_ne (String.toList_injective hnil)
  · intro c hc
    exact isMethodChar_iff.2 (h.method_chars c hc)
  · have hsuffix : specific.toList <:+ Text.trim raw.toList := by
      rw [htrim]
      exact List.suffix_append _ _
    exact isBlank_of_suffix_trim hsuffix hspecific

/-- The identifier of the parts that a text spells is read from it. -/
theorem Spells.parse_eq_ok (h : Spells raw method specific) :
    parse raw = .ok ⟨method, specific, h.wellFormed⟩ := by
  let did : Did := ⟨method, specific, h.wellFormed⟩
  have htext : Text.trimmed did.text = did.text := by
    rw [Text.trimmed, trim_text, String.ofList_toList]
  apply (parse_eq_ok_iff (parse_text did)).2
  rw [htext]
  exact h.trimmed

/-- What an identifier has of the text from which it was read. The method is also the second part
of it between all its colons. -/
structure IsReadFrom (did : Did) (raw method specific : String) : Prop where
  text_eq : did.text = Text.trimmed raw
  method_eq : did.method = method
  specific_eq : did.specific = specific
  between : (Text.split ':' did.text.toList)[1]? = some method.toList
  again : parse did.text = .ok did

/-- Exactly the texts that spell an identifier are read as one, and they are the same identifier
exactly if they differ in no more than white space around them. All others are quoted. -/
theorem reading_is_exact (raw : String) :
    ((∃ did, parse raw = .ok did) ↔ ∃ method specific, Spells raw method specific) ∧
    (∀ did method specific, parse raw = .ok did → Spells raw method specific →
      did.IsReadFrom raw method specific) ∧
    (∀ other did did', parse raw = .ok did → parse other = .ok did' →
      (did = did' ↔ Text.trimmed raw = Text.trimmed other)) ∧
    ∀ error, parse raw = .error error → error.raw = raw ∧
      error.message = "'" ++ raw ++ "' is not a valid DID (expected did:<method>:<id>)" := by
  refine ⟨⟨?_, ?_⟩, ?_, ?_, ?_⟩
  · rintro ⟨did, h⟩
    exact ⟨did.method, did.specific, spells_of_parse_eq_ok h⟩
  · rintro ⟨method, specific, h⟩
    exact ⟨_, h.parse_eq_ok⟩
  · intro did method specific h hspells
    have heq : did = ⟨method, specific, hspells.wellFormed⟩ := by
      rw [hspells.parse_eq_ok] at h
      exact (Except.ok.inj h).symm
    have hmethod : did.method = method := congrArg Did.method heq
    exact {
      text_eq := text_of_parse_eq_ok h
      method_eq := hmethod
      specific_eq := congrArg Did.specific heq
      between := hmethod ▸ did.split_text
      again := did.parse_text }
  · intro other did did' h h'
    rw [← parse_eq_ok_iff h', h]
    exact ⟨fun heq => by rw [heq], fun heq => Except.ok.inj heq⟩
  · intro error h
    have hraw := raw_of_parse_eq_error h
    refine ⟨hraw, ?_⟩
    rw [InvalidDid.message, hraw]

/-- White space inside belongs to an identifier, and so do further colons. -/
theorem padded_identifier_is_read :
    ∃ did, parse " did:web:example.com:a b\u3000\n" = .ok did ∧
      did.IsReadFrom " did:web:example.com:a b\u3000\n" "web" "example.com:a b" ∧
      parse "did:web:example.com:a b" = .ok did := by
  have hspells : Spells " did:web:example.com:a b\u3000\n" "web" "example.com:a b" := by
    refine ⟨by decide +kernel, by decide, ?_, by decide⟩
    intro c hc
    exact isMethodChar_iff.1 (List.all_eq_true.1 (by decide) c hc)
  obtain ⟨hiff, hread, -, -⟩ := reading_is_exact " did:web:example.com:a b\u3000\n"
  obtain ⟨did, hdid⟩ := hiff.2 ⟨_, _, hspells⟩
  have hfrom := hread did _ _ hdid hspells
  refine ⟨did, hdid, hfrom, ?_⟩
  have htext : did.text = "did:web:example.com:a b" := by
    rw [hfrom.text_eq]
    decide +kernel
  rw [← htext]
  exact hfrom.again

end Did

end Onboarding
