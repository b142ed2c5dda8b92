import Onboarding.Http.Form
import Onboarding.Http.Message
import Onboarding.Proofs.Bodies

namespace Onboarding.Http

def IsTrailing (b : UInt8) : Prop := 0x80 ≤ b.toNat ∧ b.toNat ≤ 0xbf

def Begins (further : Nat) (first next : UInt8) : Prop :=
  ∃ low high, following first = some (further + 1, low, high) ∧ low ≤ next ∧ next ≤ high

section

variable {first next : UInt8} {more : List UInt8}

theorem following_eq (first : UInt8) :
    following first =
      if 0xc2 ≤ first.toNat ∧ first.toNat ≤ 0xdf then some (1, 0x80, 0xbf)
      else if first.toNat = 0xe0 then some (2, 0xa0, 0xbf)
      else if first.toNat = 0xed then some (2, 0x80, 0x9f)
      else if 0xe1 ≤ first.toNat ∧ first.toNat ≤ 0xef then some (2, 0x80, 0xbf)
      else if first.toNat = 0xf0 then some (3, 0x90, 0xbf)
      else if 0xf1 ≤ first.toNat ∧ first.toNat ≤ 0xf3 then some (3, 0x80, 0xbf)
      else if first.toNat = 0xf4 then some (3, 0x80, 0x8f)
      else none := by
  simp only [following, UInt8.le_iff_toNat_le, ← UInt8.toNat_inj]
  rfl

theorem le_of_following {follow : Nat × UInt8 × UInt8} (h : following first = some follow) :
    0xc2 ≤ first.toNat := by
  rw [following_eq] at h
  split_ifs at h <;> omega

theorem begins_of_two (hfirst : 0xc2 ≤ first.toNat ∧ first.toNat ≤ 0xdf)
    (hnext : IsTrailing next) : Begins 0 first next := by
  refine ⟨0x80, 0xbf, ?_, UInt8.le_iff_toNat_le.2 hnext.1, UInt8.le_iff_toNat_le.2 hnext.2⟩
  rw [following_eq, if_pos hfirst]

/-- No character is written longer than it need be, and none of those that are written is half of
another. -/
theorem begins_of_three (hfirst : 0xe0 ≤ first.toNat ∧ first.toNat ≤ 0xef)
    (hnext : IsTrailing next) (hshort : first.toNat = 0xe0 → 0xa0 ≤ next.toNat)
    (hwhole : first.toNat = 0xed → next.toNat ≤ 0x9f) : Begins 1 first next := by
  obtain ⟨hlow, hhigh⟩ := hnext
  by_cases he0 : first.toNat = 0xe0
  · refine ⟨0xa0, 0xbf, ?_, UInt8.le_iff_toNat_le.2 (hshort he0), UInt8.le_iff_toNat_le.2 hhigh⟩
    rw [following_eq, if_neg (by omega), if_pos he0]
  · by_cases hed : first.toNat = 0xed
    · refine ⟨0x80, 0x9f, ?_, UInt8.le_iff_toNat_le.2 hlow, UInt8.le_iff_toNat_le.2 (hwhole hed)⟩
      rw [following_eq, if_neg (by omega), if_neg he0, if_pos hed]
    · refine ⟨0x80, 0xbf, ?_, UInt8.le_iff_toNat_le.2 hlow, UInt8.le_iff_toNat_le.2 hhigh⟩
      rw [following_eq, if_neg (by omega), if_neg he0, if_neg hed, if_pos (by omega)]

/-- Here, too, none is written too long, and there are no more characters from some place on. -/
theorem begins_of_four (hfirst : 0xf0 ≤ first.toNat ∧ first.toNat ≤ 0xf4)
    (hnext : IsTrailing next) (hshort : first.toNat = 0xf0 → 0x90 ≤ next.toNat)
    (hlast : first.toNat = 0xf4 → next.toNat ≤ 0x8f) : Begins 2 first next := by
  obtain ⟨hlow, hhigh⟩ := hnext
  have hlonger : following first =
      if first.toNat = 0xf0 then some (3, 0x90, 0xbf)
      else if 0xf1 ≤ first.toNat ∧ first.toNat ≤ 0xf3 then some (3, 0x80, 0xbf)
      else if first.toNat = 0xf4 then some (3, 0x80, 0x8f)
      else none := by
    rw [following_eq, if_neg (by omega), if_neg (by omega), if_neg (by omega), if_neg (by omega)]
  by_cases hf0 : first.toNat = 0xf0
  · refine ⟨0x90, 0xbf, ?_, UInt8.le_iff_toNat_le.2 (hshort hf0), UInt8.le_iff_toNat_le.2 hhigh⟩
    rw [hlonger, if_pos hf0]
  · by_cases hf4 : first.toNat = 0xf4
    · refine ⟨0x80, 0x8f, ?_, UInt8.le_iff_toNat_le.2 hlow, UInt8.le_iff_toNat_le.2 (hlast hf4)⟩
      rw [hlonger, if_neg hf0, if_neg (by omega), if_pos hf4]
    · refine ⟨0x80, 0xbf, ?_, UInt8.le_iff_toNat_le.2 hlow, UInt8.le_iff_toNat_le.2 hhigh⟩
      rw [hlonger, if_neg hf0, if_pos (by omega)]

theorem continuation_append (hmore : ∀ b ∈ more, IsTrailing b) (rest : List UInt8) :
    continuation more.length 0x80 0xbf (more ++ rest) = more := by
  induction more with
  | nil => cases rest <;> rfl
  | cons b more ih =>
    obtain ⟨hlow, hhigh⟩ := hmore b List.mem_cons_self
    have hb : 0x80 ≤ b ∧ b ≤ 0xbf := ⟨UInt8.le_iff_toNat_le.2 hlow, UInt8.le_iff_toNat_le.2 hhigh⟩
    rw [List.length_cons, List.cons_append, continuation, if_pos hb,
      ih fun b hb => hmore b (List.mem_cons_of_mem _ hb)]

theorem characters_of_begins {further : Nat} (hbegins : Begins further first next)
    (hlength : more.length = further) (hmore : ∀ b ∈ more, IsTrailing b) (rest : List UInt8) :
    characters (first :: next :: more ++ rest) =
      some (Char.ofNat (codePoint first (next :: more))) :: characters rest := by
  obtain ⟨low, high, hfollowing, hnext⟩ := hbegins
  rw [← hlength] at hfollowing
  have hfirst : ¬first < 0x80 := by
    have hlarge := le_of_following hfollowing
    have hsmall : (0x80 : UInt8).toNat = 0x80 := rfl
    rw [UInt8.lt_iff_toNat_lt]
    omega
  have hcontinuation :
      continuation (more.length + 1) low high (next :: (more ++ rest)) = next :: more := by
    rw [continuation, if_pos hnext, continuation_append hmore]
  rw [List.cons_append, List.cons_append, characters, if_neg hfirst, hfollowing]
  simp [hcontinuation]

end

theorem codePoint_two (first last : UInt8) :
    codePoint first [last] = first.toNat % 32 * 64 + last.toNat % 64 := rfl

theorem codePoint_three (first next last : UInt8) :
    codePoint first [next, last] =
      (first.toNat % 16 * 64 + next.toNat % 64) * 64 + last.toNat % 64 := rfl

theorem codePoint_four (first next third last : UInt8) :
    codePoint first [next, third, last] =
      ((first.toNat % 8 * 64 + next.toNat % 64) * 64 + third.toNat % 64) * 64 +
        last.toNat % 64 := rfl

theorem toNat_trailing (n : Nat) : (UInt8.ofNat (n % 64 + 128)).toNat = n % 64 + 128 := by
  rw [UInt8.toNat_ofNat']
  omega

theorem isTrailing_ofNat (n : Nat) : IsTrailing (.ofNat (n % 64 + 128)) := by
  rw [IsTrailing, toNat_trailing]
  omega

/-- The bytes of a character, before any others, are read as that character. -/
theorem characters_utf8EncodeChar (c : Char) (rest : List UInt8) :
    characters (String.utf8EncodeChar c ++ rest) = some c :: characters rest := by
  obtain ⟨n, hn⟩ : ∃ n, c.val.toNat = n := ⟨_, rfl⟩
  have hvalid : n < 0xd800 ∨ 0xdfff < n ∧ n < 0x110000 := hn ▸ c.valid
  have hchar : Char.ofNat n = c := by
    rw [← hn]
    exact Char.ofNat_toNat c
  unfold String.utf8EncodeChar
  simp only [hn]
  -- One, two, three or four bytes. Between them, the bytes have all the bits of the number.
  split_ifs with hone htwo hthree
  · have hfirst : (UInt8.ofNat n).toNat = n := by
      rw [UInt8.toNat_ofNat']
      omega
    have hlow : UInt8.ofNat n < 0x80 := by
      rw [UInt8.lt_iff_toNat_lt, hfirst]
      exact Nat.lt_succ_of_le hone
    rw [List.singleton_append, characters, if_pos hlow, hfirst, hchar]
  · have hfirst : (UInt8.ofNat (n / 64 % 32 + 192)).toNat = n / 64 % 32 + 192 := by
      rw [UInt8.toNat_ofNat']
      omega
    have hbegins : Begins 0 (.ofNat (n / 64 % 32 + 192)) (.ofNat (n % 64 + 128)) :=
      begins_of_two (by omega) (isTrailing_ofNat n)
    have hcode : codePoint (.ofNat (n / 64 % 32 + 192)) [.ofNat (n % 64 + 128)] = n := by
      rw [codePoint_two, hfirst, toNat_trailing]
      omega
    have hmore : ∀ b ∈ ([] : List UInt8), IsTrailing b := List.forall_mem_nil _
    have hread := characters_of_begins hbegins rfl hmore rest
    rwa [hcode, hchar] at hread
  · have hfirst : (UInt8.ofNat (n / 4096 % 16 + 224)).toNat = n / 4096 % 16 + 224 := by
      rw [UInt8.toNat_ofNat']
      omega
    have hnext := toNat_trailing (n / 64)
    have hbegins : Begins 1 (.ofNat (n / 4096 % 16 + 224)) (.ofNat (n / 64 % 64 + 128)) :=
      begins_of_three (by omega) (isTrailing_ofNat (n / 64)) (by omega) (by omega)
    have hcode : codePoint (.ofNat (n / 4096 % 16 + 224))
        [.ofNat (n / 64 % 64 + 128), .ofNat (n % 64 + 128)] = n := by
      rw [codePoint_three, hfirst, hnext, toNat_trailing]
      omega
    have hmore : ∀ b ∈ [UInt8.ofNat (n % 64 + 128)], IsTrailing b :=
      List.forall_mem_singleton.2 (isTrailing_ofNat n)
    have hread := characters_of_begins hbegins rfl hmore rest
    rwa [hcode, hchar] at hread
  · have hfirst : (UInt8.ofNat (n / 262144 % 8 + 240)).toNat = n / 262144 % 8 + 240 := by
      rw [UInt8.toNat_ofNat']
      omega
    have hnext := toNat_trailing (n / 4096)
    have hbegins : Begins 2 (.ofNat (n / 262144 % 8 + 240)) (.ofNat (n / 4096 % 64 + 128)) :=
      begins_of_four (by omega) (isTrailing_ofNat (n / 4096)) (by omega) (by omega)
    have hcode : codePoint (.ofNat (n / 262144 % 8 + 240)) [.ofNat (n / 4096 % 64 + 128),
        .ofNat (n / 64 % 64 + 128), .ofNat (n % 64 + 128)] = n := by
      rw [codePoint_four, hfirst, hnext, toNat_trailing, toNat_trailing]
      omega
    have hmore :
        ∀ b ∈ [UInt8.ofNat (n / 64 % 64 + 128), UInt8.ofNat (n % 64 + 128)], IsTrailing b :=
      List.forall_mem_cons.2
        ⟨isTrailing_ofNat (n / 64), List.forall_mem_singleton.2 (isTrailing_ofNat n)⟩
    have hread := characters_of_begins hbegins rfl hmore rest
    rwa [hcode, hchar] at hread

/-- The bytes of a text are read as its characters. -/
theorem characters_flatMap (cs : List Char) :
    characters (cs.flatMap String.utf8EncodeChar) = cs.map some := by
  induction cs with
  | nil => simp [characters]
  | cons c cs ih => rw [List.flatMap_cons, characters_utf8EncodeChar, ih, List.map_cons]

theorem textOfBytes_flatMap (cs : List Char) :
    textOfBytes (cs.flatMap String.utf8EncodeChar) = String.ofList cs := by
  rw [textOfBytes, characters_flatMap, List.map_map]
  congr 1
  exact List.map_id cs

def percentEncoded (bytes : List UInt8) : List Char :=
  bytes.flatMap fun b => ['%', Json.hexDigit (b.toNat / 16), Json.hexDigit (b.toNat % 16)]

theorem percentDecoded_percentEncoded (bytes : List UInt8) :
    percentDecoded (percentEncoded bytes) = bytes := by
  induction bytes with
  | nil => rfl
  | cons b bytes ih =>
    have hbyte :
        hexByte? (Json.hexDigit (b.toNat / 16)) (Json.hexDigit (b.toNat % 16)) = some b := by
      rw [hexByte?, Json.hex4?_hexDigit b.toNat_lt]
      simp
    rw [percentEncoded, List.flatMap_cons]
    change percentDecoded ('%' :: _ :: _ :: percentEncoded bytes) = _
    rw [percentDecoded, hbyte]
    simp only [ih]

/-- What is written so has none of the characters that mean something in a target or in a query. -/
theorem notMem_percentEncoded {mark : Char} (h : mark ∈ ['#', '?', '&', '=', '+'])
    (bytes : List UInt8) : mark ∉ percentEncoded bytes := by
  have hdigit : ∀ m : Fin 16, Json.hexDigit m.val ∉ ['#', '?', '&', '=', '+'] := by decide
  intro hmem
  obtain ⟨b, -, hb⟩ := List.mem_flatMap.1 hmem
  have hbound := b.toNat_lt
  simp only [List.mem_cons, List.not_mem_nil, or_false] at hb
  rcases hb with rfl | rfl | rfl
  · revert h
    decide
  · exact hdigit ⟨b.toNat / 16, by omega⟩ h
  · exact hdigit ⟨b.toNat % 16, by omega⟩ h

theorem forall_ne_of_notMem {mark : Char} {cs : List Char} (h : mark ∉ cs) :
    ∀ c ∈ cs, decide (c ≠ mark) = true := by
  intro c hc
  exact decide_eq_true fun heq => h (heq ▸ hc)

theorem map_space_of_notMem {cs : List Char} (h : '+' ∉ cs) :
    cs.map (fun c => if c = '+' then ' ' else c) = cs := by
  calc
    cs.map (fun c => if c = '+' then ' ' else c) = cs.map id :=
      List.map_congr_left fun c hc => if_neg fun heq : c = '+' => h (heq ▸ hc)
    _ = cs := List.map_id cs

theorem percentDecoded_of_notMem {cs : List Char} (h : '%' ∉ cs) :
    percentDecoded cs = cs.flatMap String.utf8EncodeChar := by
  induction cs with
  | nil => rfl
  | cons c cs ih =>
    have hc : c ≠ '%' := fun heq => h (heq ▸ List.mem_cons_self)
    rw [List.flatMap_cons, ← ih fun hmem => h (List.mem_cons_of_mem c hmem), percentDecoded]
    rintro a b rest rfl
    exact absurd rfl hc

/-- A text with none of these characters may stand in a query as it is. -/
theorem formDecoded_of_notMem {cs : List Char} (hpercent : '%' ∉ cs) (hplus : '+' ∉ cs) :
    formDecoded cs = String.ofList cs := by
  rw [formDecoded, map_space_of_notMem hplus, percentDecoded_of_notMem hpercent,
    textOfBytes_flatMap]

def formEncoded (raw : String) : List Char :=
  percentEncoded (raw.toList.flatMap String.utf8EncodeChar)

/-- A text that is written in a query is read again. -/
theorem formDecoded_formEncoded (raw : String) : formDecoded (formEncoded raw) = raw := by
  have hplus : '+' ∉ formEncoded raw := notMem_percentEncoded (by decide) _
  rw [formDecoded, map_space_of_notMem hplus, formEncoded, percentDecoded_percentEncoded,
    textOfBytes_flatMap, String.ofList_toList]

/-- What is written as the value of a field is read again. -/
theorem formValues_formEncoded {name : String} (hname : ∀ c ∈ ['%', '+', '&', '='], c ∉ name.toList)
    (raw : String) : formValues (name.toList ++ '=' :: formEncoded raw) name = [raw] := by
  have hand : '&' ∉ name.toList ++ '=' :: formEncoded raw := by
    have hvalue : '&' ∉ formEncoded raw := notMem_percentEncoded (by decide) _
    have hplain := hname '&' (by decide)
    simp [hvalue, hplain]
  have hequals := forall_ne_of_notMem (hname '=' (by decide))
  have hfield : formField (name.toList ++ '=' :: formEncoded raw) = (name, raw) := by
    rw [formField, List.takeWhile_append_of_pos hequals, List.dropWhile_append_of_pos hequals]
    have hplain := formDecoded_of_notMem (hname '%' (by decide)) (hname '+' (by decide))
    simp [formDecoded_formEncoded, hplain]
  simp [formValues, formFields, Text.split_of_notMem hand, hfield]

namespace Request

variable {request : Request} {path query : List Char}

/-- The path and the query of a target are what stands before and after the question mark. -/
theorem path_query_of_target (htarget : request.target.toList = '/' :: path ++ '?' :: query)
    (hpath : ∀ mark ∈ ['?', '#'], mark ∉ path) (hquery : '#' ∉ query) :
    request.path = '/' :: path ∧ request.query = query := by
  have hlocation : request.location = '/' :: (path ++ '?' :: query) := by
    have hhash : '#' ∉ '/' :: (path ++ '?' :: query) := by
      have hplain := hpath '#' (by decide)
      simp [hplain, hquery]
    have hkept : request.target.toList.takeWhile (· ≠ '#') = '/' :: (path ++ '?' :: query) := by
      rw [htarget, List.cons_append, ← List.append_nil ('/' :: (path ++ '?' :: query)),
        List.takeWhile_append_of_pos (forall_ne_of_notMem hhash)]
      rfl
    rw [location, hkept]
    rfl
  have hmark : '?' ∉ '/' :: path := by
    have hplain := hpath '?' (by decide)
    simp [hplain]
  rw [Request.path, Request.query, hlocation, ← List.cons_append,
    List.takeWhile_append_of_pos (forall_ne_of_notMem hmark),
    List.dropWhile_append_of_pos (forall_ne_of_notMem hmark)]
  simp

end Request

end Onboarding.Http
