import Mathlib.Tactic.SplitIfs
import Onboarding.Http.Submission
import Onboarding.Json.Printer

namespace Onboarding

namespace Json

theorem hex4?_hexDigit {n : Nat} (h : n < 256) :
    Token.hex4? '0' '0' (hexDigit (n / 16)) (hexDigit (n % 16)) = some n := by
  have hall : ∀ m : Fin 256,
      Token.hex4? '0' '0' (hexDigit (m.val / 16)) (hexDigit (m.val % 16)) = some m.val := by
    decide +kernel
  exact hall ⟨n, h⟩

/-- A character as it is printed is read as its number. -/
theorem readString_escaped (c : Char) (rest : List Char) :
    Token.readString (escaped c ++ rest) =
      (Token.readString rest).map fun (units, n) => (c.toNat :: units, n + (escaped c).length) := by
  unfold escaped
  split_ifs with hquote hslash hline hreturn htab hback hfeed hlow
  · subst hquote
    rfl
  · subst hslash
    rfl
  · subst hline
    rfl
  · subst hreturn
    rfl
  · subst htab
    rfl
  · rw [hback]
    rfl
  · rw [hfeed]
    rfl
  · simp [Token.readString, hex4?_hexDigit (by omega : c.toNat < 256)]
  · simp [Token.readString, hslash, hlow]

/-- A string that was escaped is read up to the quote behind it. -/
theorem readString_flatMap_escaped (cs rest : List Char) :
    Token.readString (cs.flatMap escaped ++ '"' :: rest) =
      some (cs.map Char.toNat, (cs.flatMap escaped).length + 1) := by
  induction cs with
  | nil => rfl
  | cons c cs ih =>
    rw [List.flatMap_cons, List.append_assoc, readString_escaped, ih]
    simp only [Option.map_some, List.map_cons, List.length_append]
    congr 2
    omega

/-- No character is half of another. -/
theorem text?_map_toNat (cs : List Char) : Token.text? (cs.map Char.toNat) = some cs := by
  induction cs with
  | nil => rfl
  | cons c cs ih =>
    have hvalid : c.toNat < 0xd800 ∨ 0xdfff < c.toNat := by
      rcases c.valid with h | h
      · exact Or.inl h
      · exact Or.inr h.1
    rw [List.map_cons, Token.text?.eq_def]
    simp only [ih]
    rw [if_neg (by omega), if_neg (by omega), Char.ofNat_toNat]
    rfl

/-- A string between quotes is one token, whatever follows. -/
theorem ofText_quoted (s : String) (rest : List Char) :
    Token.ofText ((quoted s).toList ++ rest) =
      .string (s.toList.map Char.toNat) :: Token.ofText rest := by
  have hread := readString_flatMap_escaped s.toList rest
  have hsplit : (quoted s).toList ++ rest = '"' :: (s.toList.flatMap escaped ++ '"' :: rest) := by
    simp [quoted]
  have hdrop : (s.toList.flatMap escaped ++ '"' :: rest).drop
      ((s.toList.flatMap escaped).length + 1) = rest := by
    rw [List.drop_append, List.drop_of_length_le (by omega)]
    simp
  rw [hsplit, Token.ofText]
  simp [Token.isSpace, hread, hdrop, -List.length_flatMap]

end Json

namespace Http

def bodyOf (raw : String) : String := Json.compact (.object [("did", .string raw)])

/-- What is handed in is read, whatever characters it has. -/
theorem read_bodyOf (raw : String) : Submission.read (bodyOf raw) = .ok raw := by
  have htext : (bodyOf raw).toList = '{' :: ((Json.quoted "did").toList ++
      (':' :: ((Json.quoted raw).toList ++ ['}']))) := by
    simp [bodyOf, Json.compact, Json.compactFields, Json.scalarText]
  have htokens : Json.Token.ofText (bodyOf raw).toList =
      [.openObject, .string ("did".toList.map Char.toNat), .colon,
        .string (raw.toList.map Char.toNat), .closeObject] := by
    simp [htext, Json.Token.ofText, Json.ofText_quoted, Json.Token.isSpace]
  have hread (s : String) : Json.stringOfUnits? (s.toList.map Char.toNat) = some s := by
    rw [Json.stringOfUnits?, Json.text?_map_toNat, Option.map_some, String.ofList_toList]
  rw [Submission.read, htokens]
  -- Neither function opens on its own, since each of them goes on with the other.
  change Submission.readFields (3 + 1) none (.string _ :: _) = _
  rw [Submission.readFields, hread "did"]
  change (Submission.readText (.string _ :: _) >>= _) = _
  rw [Submission.readText, hread raw]
  change Submission.readFields.readMore 3 (some raw) [.closeObject] = .ok raw
  rw [Submission.readFields.readMore]
  rfl

end Http

end Onboarding
