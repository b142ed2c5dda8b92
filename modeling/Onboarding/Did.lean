import Onboarding.Text.Blank

namespace Onboarding

open Text

def isMethodChar (c : Char) : Bool := c.isLower || c.isDigit

/-- The two parts make an identifier: neither is empty, the method is made of its characters, and
the whole does not end in white space. -/
structure Did.WellFormed (method specific : List Char) : Prop where
  method_ne_nil : method ≠ []
  method_chars : ∀ c ∈ method, isMethodChar c = true
  specific_ne_nil : specific ≠ []
  specific_end : ∀ c ∈ specific.getLast?, isBlank c = false

structure Did where
  method : String
  specific : String
  wellFormed : Did.WellFormed method.toList specific.toList
deriving DecidableEq

structure InvalidDid where
  raw : String
deriving DecidableEq

def InvalidDid.message (e : InvalidDid) : String :=
  "'" ++ e.raw ++ "' is not a valid DID (expected did:<method>:<id>)"

namespace Did

def text (d : Did) : String := "did:" ++ d.method ++ ":" ++ d.specific

instance : ToString Did := ⟨text⟩

def parts? : List Char → Option (List Char × List Char)
  | 'd' :: 'i' :: 'd' :: ':' :: rest =>
    match rest.dropWhile (· ≠ ':') with
    | [] => none
    | _ :: specific => some (rest.takeWhile (· ≠ ':'), specific)
  | _ => none

/-- What follows the second colon is the end of the text. -/
theorem suffix_of_parts? {cs method specific : List Char}
    (h : parts? cs = some (method, specific)) : specific <:+ cs := by
  unfold parts? at h
  split at h
  · next rest =>
    split at h
    · cases h
    · next c s hs =>
      cases h
      have hdrop : (c :: specific) <:+ rest := hs ▸ List.dropWhile_suffix _
      exact ((List.suffix_cons c specific).trans hdrop).trans
        (List.suffix_append ['d', 'i', 'd', ':'] rest)
  · cases h

/-- A nonempty end of a trimmed text does not end in white space. -/
theorem isBlank_of_suffix_trim {cs specific : List Char} (hs : specific <:+ trim cs)
    (hne : specific ≠ []) : ∀ c ∈ specific.getLast?, isBlank c = false := by
  intro c hc
  obtain ⟨p, hp⟩ := hs
  refine @isBlank_of_mem_getLast?_trim cs c ?_
  rw [← hp, List.getLast?_append, List.getLast?_eq_some_getLast hne, Option.some_or,
    ← List.getLast?_eq_some_getLast hne]
  exact hc

def parse (raw : String) : Except InvalidDid Did :=
  match h : parts? (trim raw.toList) with
  | none => .error ⟨raw⟩
  | some (method, specific) =>
    if ok : method ≠ [] ∧ method.all isMethodChar = true ∧ specific ≠ [] then
      .ok {
        method := String.ofList method
        specific := String.ofList specific
        wellFormed := by
          rw [String.toList_ofList, String.toList_ofList]
          exact ⟨ok.1, List.all_eq_true.1 ok.2.1, ok.2.2,
            isBlank_of_suffix_trim (suffix_of_parts? h) ok.2.2⟩ }
    else .error ⟨raw⟩

end Did

end Onboarding
