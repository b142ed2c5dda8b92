import Mathlib.Data.List.Forall2
import Mathlib.Data.List.Nodup
import Mathlib.Data.Set.Function
import Onboarding.Policy
import Onboarding.Proofs.Parts

namespace Onboarding

namespace Json

/-- The values are equal: of one kind throughout, with equal items at the same places and equal
values under the same names. -/
@[mk_iff]
inductive Alike : Json → Json → Prop
  | null : Alike .null .null
  | bool (b : Bool) : Alike (.bool b) (.bool b)
  | int (n : Int) : Alike (.int n) (.int n)
  | float {x y : Number.Double} (same : x.same y = true) : Alike (.float x) (.float y)
  | string (s : String) : Alike (.string s) (.string s)
  | array {items others : List Json} (alike : List.Forall₂ Alike items others) :
    Alike (.array items) (.array others)
  | object {fields others : List (String × Json)}
    (names : fields.map Prod.fst = others.map Prod.fst)
    (alike : List.Forall₂ Alike (fields.map Prod.snd) (others.map Prod.snd)) :
    Alike (.object fields) (.object others)

mutual

theorem same_iff (v w : Json) : v.same w = true ↔ v.Alike w := by
  rw [alike_iff]
  -- Values of two kinds are not equal. Those with parts are compared part by part.
  cases v with
  | array items =>
    cases w with
    | array others => simp [same, sameItems_iff items others]
    | _ => simp [same]
  | object fields =>
    cases w with
    | object others => simp [same, sameFields_iff fields others]
    | _ => simp [same]
  | _ => cases w <;> simp [same] <;> exact eq_comm

theorem sameItems_iff : ∀ items others : List Json,
    sameItems items others = true ↔ List.Forall₂ Alike items others
  | [], [] => by simp [sameItems]
  | [], _ :: _ => by simp [sameItems]
  | _ :: _, [] => by simp [sameItems]
  | v :: items, w :: others => by
    rw [sameItems, Bool.and_eq_true, same_iff v w, sameItems_iff items others, List.forall₂_cons]

theorem sameFields_iff : ∀ fields others : List (String × Json),
    sameFields fields others = true ↔ fields.map Prod.fst = others.map Prod.fst ∧
      List.Forall₂ Alike (fields.map Prod.snd) (others.map Prod.snd)
  | [], [] => by simp [sameFields]
  | [], _ :: _ => by simp [sameFields]
  | _ :: _, [] => by simp [sameFields]
  | (m, v) :: fields, (n, w) :: others => by
    simp only [sameFields, Bool.and_eq_true, beq_iff_eq, same_iff v w,
      sameFields_iff fields others, List.map_cons, List.cons.injEq, List.forall₂_cons]
    tauto

end

variable {α : Type}

theorem field?_eq_some_iff {name : String} {v w : Json} :
    v.field? name = some w ↔ ∃ fields, v = .object fields ∧ lookup name fields = some w := by
  cases v <;> simp [field?]

theorem lookup_insert (name : String) (value : α) (fields : List (String × α)) (other : String) :
    lookup other (insert name value fields) =
      if name = other then some value else lookup other fields := by
  induction fields with
  | nil => rfl
  | cons f fields ih =>
    obtain ⟨n, v⟩ := f
    by_cases hlt : name < n
    · rw [insert, if_pos hlt, lookup]
    · by_cases hgt : n < name
      · rw [insert, if_neg hlt, if_pos hgt, lookup, lookup, ih]
        by_cases hn : n = other
        · have hne : name ≠ other := fun h => String.lt_irrefl n (by rwa [h, ← hn] at hgt)
          rw [if_pos hn, if_pos hn, if_neg hne]
        · rw [if_neg hn, if_neg hn]
      · have heq : n = name := String.le_antisymm (String.not_lt.1 hlt) (String.not_lt.1 hgt)
        rw [insert, if_neg hlt, if_neg hgt, lookup, lookup, heq]
        by_cases hname : name = other <;> simp [hname]

/-- The value under a name is the last one in the list. -/
theorem lookup_ordered (name : String) (fields : List (String × α)) :
    lookup name (ordered fields) = lookup name fields.reverse := by
  induction fields using List.reverseRecOn with
  | nil => rfl
  | append_singleton fields f ih =>
    rw [ordered_snoc, lookup_insert, ih, List.reverse_append]
    rfl

theorem mem_of_lookup_eq_some {name : String} {fields : List (String × α)} {value : α}
    (h : lookup name fields = some value) : (name, value) ∈ fields := by
  induction fields with
  | nil => cases h
  | cons f fields ih =>
    rw [lookup] at h
    split at h
    · next hname =>
      cases h
      rw [← hname]
      exact List.mem_cons_self
    · exact List.mem_cons_of_mem f (ih h)

/-- Among distinct names, a field is found exactly if it is there. -/
theorem lookup_eq_some_iff {name : String} {fields : List (String × α)} {value : α}
    (hdistinct : (fields.map Prod.fst).Nodup) :
    lookup name fields = some value ↔ (name, value) ∈ fields := by
  refine ⟨mem_of_lookup_eq_some, ?_⟩
  intro h
  induction fields with
  | nil => cases h
  | cons f fields ih =>
    obtain ⟨hnew, hrest⟩ := List.nodup_cons.1 hdistinct
    rw [lookup]
    rcases List.mem_cons.1 h with rfl | h
    · exact if_pos rfl
    · have hne : f.1 ≠ name := fun heq => hnew (heq ▸ List.mem_map_of_mem h)
      rw [if_neg hne, ih hrest h]

end Json

namespace ClaimSet

variable {claims : ClaimSet}

def names (claims : ClaimSet) : List String := claims.entries.map Prod.fst

theorem nodup_names (claims : ClaimSet) : claims.names.Nodup :=
  (List.pairwise_map.2 claims.ordered).imp String.ne_of_lt

theorem get?_eq_some_iff {name : String} {value : Json} :
    claims.get? name = some value ↔ (name, value) ∈ claims.entries :=
  Json.lookup_eq_some_iff claims.nodup_names

def renamed (claims : ClaimSet) (rename : String → String) : ClaimSet :=
  .ofList (claims.entries.map fun entry => (rename entry.1, entry.2))

/-- No value is lost if different names stay different. -/
theorem mem_renamed_iff {rename : String → String}
    (hinj : Set.InjOn rename {name | name ∈ claims.names}) {name : String} {value : Json} :
    (name, value) ∈ (claims.renamed rename).entries ↔
      ∃ old, (old, value) ∈ claims.entries ∧ rename old = name := by
  -- Of two entries with one name only the last would be kept.
  have hdistinct :
      ((claims.entries.map fun entry => (rename entry.1, entry.2)).reverse.map Prod.fst).Nodup := by
    rw [List.map_reverse, List.nodup_reverse, List.map_map]
    have hnames : (claims.names.map rename).Nodup :=
      claims.nodup_names.map_on fun a ha b hb => hinj ha hb
    rwa [names, List.map_map] at hnames
  rw [← get?_eq_some_iff, get?, renamed, ofList, Json.lookup_ordered,
    Json.lookup_eq_some_iff hdistinct, List.mem_reverse, List.mem_map]
  constructor
  · rintro ⟨⟨old, v⟩, hmem, heq⟩
    cases heq
    exact ⟨old, hmem, rfl⟩
  · rintro ⟨old, hmem, rfl⟩
    exact ⟨(old, value), hmem, rfl⟩

end ClaimSet

namespace ClaimPolicy

variable {p : ClaimPolicy} {claims other : ClaimSet}

/-- The value is a credential: under `vc` it has an object, under `credentialSubject` that has
another, and there the claim has the expected value. -/
def IsAttestedBy (p : ClaimPolicy) (value : Json) : Prop :=
  ∃ fields vc subject found, value = .object fields ∧
    Json.lookup "vc" fields = some (.object vc) ∧
    Json.lookup "credentialSubject" vc = some (.object subject) ∧
    Json.lookup p.claim subject = some found ∧ found.Alike p.expected

def IsMetBy (p : ClaimPolicy) (entry : String × Json) : Prop :=
  entry.1 = p.claim ∧ entry.2.Alike p.expected ∨ p.IsAttestedBy entry.2

theorem isAttestedBy_iff {value : Json} :
    p.IsAttestedBy value ↔
      ∃ found, p.subjectClaim? value = some found ∧ found.Alike p.expected := by
  simp only [subjectClaim?, Option.bind_eq_some_iff, Json.field?_eq_some_iff, IsAttestedBy]
  constructor
  · rintro ⟨fields, vc, subject, found, hvalue, hvc, hsubject, hfound, halike⟩
    exact ⟨found, ⟨_, ⟨_, ⟨fields, hvalue, hvc⟩, vc, rfl, hsubject⟩, subject, rfl, hfound⟩, halike⟩
  · rintro ⟨found, ⟨_, ⟨_, ⟨fields, hvalue, hvc⟩, vc, rfl, hsubject⟩, subject, rfl, hfound⟩, halike⟩
    exact ⟨fields, vc, subject, found, hvalue, hvc, hsubject, hfound, halike⟩

theorem isDirect_iff :
    p.isDirect claims = true ↔ ∃ found, (p.claim, found) ∈ claims.entries ∧
      found.Alike p.expected := by
  simp only [isDirect, Option.any_eq_true, ClaimSet.get?_eq_some_iff, Json.same_iff]

/-- The search comes to a credential with the expected value wherever it is. -/
theorem searchCredentials_iff {entries : List (String × Json)} :
    (p.searchCredentials entries).1 = true ↔ ∃ entry ∈ entries, p.IsAttestedBy entry.2 := by
  induction entries with
  | nil => simp [searchCredentials]
  | cons entry entries ih =>
    obtain ⟨key, credential⟩ := entry
    rw [searchCredentials, List.exists_mem_cons_iff, isAttestedBy_iff, ← ih]
    -- Only the expected value ends the search, and no entry keeps it from going on.
    cases p.subjectClaim? credential with
    | none => simp
    | some found => by_cases hsame : found.same p.expected = true <;> simp [hsame, ← Json.same_iff]

theorem exists_isMetBy_iff :
    (∃ entry ∈ claims.entries, p.IsMetBy entry) ↔
      (∃ found, (p.claim, found) ∈ claims.entries ∧ found.Alike p.expected) ∨
        ∃ entry ∈ claims.entries, p.IsAttestedBy entry.2 := by
  constructor
  · rintro ⟨⟨name, value⟩, hmem, ⟨rfl, halike⟩ | hattested⟩
    · exact Or.inl ⟨value, hmem, halike⟩
    · exact Or.inr ⟨_, hmem, hattested⟩
  · rintro (⟨found, hmem, halike⟩ | ⟨entry, hmem, hattested⟩)
    · exact ⟨_, hmem, Or.inl ⟨rfl, halike⟩⟩
    · exact ⟨entry, hmem, Or.inr hattested⟩

/-- Membership is allowed if some entry meets the policy, and denied with the policy's reason if
none does. -/
theorem decide_cases (p : ClaimPolicy) (claims : ClaimSet) :
    ((∃ entry ∈ claims.entries, p.IsMetBy entry) ∧ p.decide claims = .allow) ∨
      ((¬∃ entry ∈ claims.entries, p.IsMetBy entry) ∧ p.decide claims = .deny p.denial) := by
  rw [exists_isMetBy_iff, ← isDirect_iff, ← searchCredentials_iff, decide, evaluate]
  by_cases hdirect : p.isDirect claims = true
  · simp [hdirect]
  · by_cases hfound : (p.searchCredentials claims.entries).1 = true <;> simp [hdirect, hfound]

theorem decide_eq_allow_iff :
    p.decide claims = .allow ↔ ∃ entry ∈ claims.entries, p.IsMetBy entry := by
  rcases p.decide_cases claims with ⟨hmet, h⟩ | ⟨hnot, h⟩ <;> simp [*]

/-- Claims that both meet the policy, or both do not, lead to the same decision. -/
theorem decide_eq_of_iff (h : (∃ entry ∈ claims.entries, p.IsMetBy entry) ↔
    ∃ entry ∈ other.entries, p.IsMetBy entry) : p.decide claims = p.decide other := by
  rcases p.decide_cases claims with ⟨hmet, hclaims⟩ | ⟨hnot, hclaims⟩ <;>
    rcases p.decide_cases other with ⟨hmet', hother⟩ | ⟨hnot', hother⟩
  · rw [hclaims, hother]
  · exact absurd (h.1 hmet) hnot'
  · exact absurd (h.2 hmet') hnot
  · rw [hclaims, hother]

/-- Other names for the entries, all distinct, lead to the same decision, as long as none becomes or
ceases to be the name of the claim. -/
theorem decide_renamed {rename : String → String}
    (hinj : Set.InjOn rename {name | name ∈ claims.names})
    (hclaim : ∀ name ∈ claims.names, rename name = p.claim ↔ name = p.claim) :
    p.decide (claims.renamed rename) = p.decide claims := by
  -- The name of an entry matters only for whether it is the claim.
  have hmet : ∀ name value, (name, value) ∈ claims.entries →
      (p.IsMetBy (rename name, value) ↔ p.IsMetBy (name, value)) := by
    intro name value hmem
    exact or_congr_left (and_congr_left fun _ => hclaim name (List.mem_map_of_mem hmem))
  apply decide_eq_of_iff
  constructor
  · rintro ⟨⟨name, value⟩, hmem, h⟩
    obtain ⟨old, hold, rfl⟩ := (ClaimSet.mem_renamed_iff hinj).1 hmem
    exact ⟨(old, value), hold, (hmet old value hold).1 h⟩
  · rintro ⟨⟨old, value⟩, hold, h⟩
    exact ⟨(rename old, value), (ClaimSet.mem_renamed_iff hinj).2 ⟨old, hold, rfl⟩,
      (hmet old value hold).2 h⟩

/-- Membership is allowed exactly if one entry has the expected value, under the name of the claim
or inside a credential, and is denied otherwise. New names do not change that if they keep the
entries apart and the claim where it is. Neither do entries without the value, nor the order in
which the entries are looked at; and further entries never turn it into a denial. -/
theorem decision_is_existential (p : ClaimPolicy) (claims : ClaimSet) :
    (p.decide claims = .allow ↔
      (∃ found, (p.claim, found) ∈ claims.entries ∧ found.Alike p.expected) ∨
        ∃ entry ∈ claims.entries, p.IsAttestedBy entry.2) ∧
    (p.decide claims = .allow ∨ p.decide claims = .deny p.denial) ∧
    (∀ rename : String → String, Set.InjOn rename {name | name ∈ claims.names} →
      (∀ name ∈ claims.names, rename name = p.claim ↔ name = p.claim) →
      p.decide (claims.renamed rename) = p.decide claims) ∧
    (∀ other : ClaimSet,
      (∀ entry, p.IsMetBy entry → (entry ∈ claims.entries ↔ entry ∈ other.entries)) →
      p.decide other = p.decide claims) ∧
    (∀ visited : List (String × Json), visited.Perm claims.entries →
      (p.searchCredentials visited).1 = (p.searchCredentials claims.entries).1) ∧
    ∀ more : ClaimSet, claims.entries ⊆ more.entries →
      p.decide claims = .allow → p.decide more = .allow := by
  refine ⟨?_, ?_, ?_, ?_, ?_, ?_⟩
  · rw [decide_eq_allow_iff, exists_isMetBy_iff]
  · exact (p.decide_cases claims).imp And.right And.right
  · intro rename hinj hclaim
    exact decide_renamed hinj hclaim
  · intro other hsame
    apply decide_eq_of_iff
    exact exists_congr fun entry => and_congr_left fun hmet => (hsame entry hmet).symm
  · intro visited hperm
    rw [Bool.eq_iff_iff, searchCredentials_iff, searchCredentials_iff]
    exact exists_congr fun entry => and_congr_left fun _ => hperm.mem_iff
  · intro more hsub hallow
    obtain ⟨entry, hmem, hmet⟩ := decide_eq_allow_iff.1 hallow
    exact decide_eq_allow_iff.2 ⟨entry, hsub hmem, hmet⟩

def credentialOf (value : String) : Json :=
  .object [("vc", .object [("credentialSubject", .object [("gaiaXMember", .string value)])])]

def mixedClaims : ClaimSet where
  -- In front of the credential that has the expected value are a text, a credential with another
  -- value, and the claim itself with a value that only looks like the expected one.
  entries := [("a", .string "true"), ("b", credentialOf "false"), ("gaiaXMember", .bool true),
    ("z", credentialOf "true")]
  ordered := by decide

/-- With the first and the last name exchanged, the credential comes first. -/
theorem mixed_claims_are_allowed :
    let swap : String → String :=
      fun name => if name = "a" then "z" else if name = "z" then "a" else name
    let more : ClaimSet := ⟨mixedClaims.entries ++ [("zz", credentialOf "false")], by decide⟩
    ({} : ClaimPolicy).decide mixedClaims = .allow ∧
      ({} : ClaimPolicy).decide (mixedClaims.renamed swap) = .allow ∧
      ("a", credentialOf "true") ∈ (mixedClaims.renamed swap).entries ∧
      (({} : ClaimPolicy).searchCredentials mixedClaims.entries.reverse).1 = true ∧
      ({} : ClaimPolicy).decide more = .allow := by
  intro swap more
  obtain ⟨hiff, -, hrenamed, -, hvisited, hmore⟩ :=
    decision_is_existential ({} : ClaimPolicy) mixedClaims
  have hmem : ("z", credentialOf "true") ∈ mixedClaims.entries := by simp [mixedClaims]
  have hallow : ({} : ClaimPolicy).decide mixedClaims = .allow :=
    hiff.2 (Or.inr ⟨_, hmem, _, _, _, _, rfl, rfl, rfl, rfl, .string "true"⟩)
  have hall : ∀ a ∈ mixedClaims.names, ∀ b ∈ mixedClaims.names, swap a = swap b → a = b := by
    decide
  have hinj : Set.InjOn swap {name | name ∈ mixedClaims.names} :=
    fun a ha b hb => hall a ha b hb
  refine ⟨hallow, ?_, (ClaimSet.mem_renamed_iff hinj).2 ⟨"z", hmem, rfl⟩, ?_, ?_⟩
  · rw [hrenamed swap hinj (by decide), hallow]
  · rw [hvisited _ (List.reverse_perm _)]
    rfl
  · exact hmore more (List.subset_append_left _ _) hallow

end ClaimPolicy

end Onboarding
