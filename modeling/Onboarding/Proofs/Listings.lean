import Onboarding.Http.Answer
import Onboarding.Proofs.Parts
import Onboarding.Proofs.Queries
import Onboarding.Proofs.Targets
import Onboarding.Rehearsal.Store

namespace Onboarding

open Http

namespace State

def IsNamedBy (s : State) (raw : String) : Prop :=
  Text.foldCase (Text.trimmed raw).toList = Text.foldCase s.label.toList

theorem foldCase_label_injective :
    Function.Injective fun s : State => Text.foldCase s.label.toList := by
  have hdistinct : (all.map fun s => Text.foldCase s.label.toList).Nodup := by decide +kernel
  intro s s' h
  exact List.inj_on_of_nodup_map hdistinct (mem_all s) (mem_all s') h

theorem IsNamedBy.unique {s s' : State} {raw : String} (h : s.IsNamedBy raw)
    (h' : s'.IsNamedBy raw) : s = s' :=
  foldCase_label_injective (h.symm.trans h')

theorem ofLabel?_eq_some_iff {raw : String} {s : State} :
    ofLabel? raw = some s ↔ s.IsNamedBy raw := by
  rw [IsNamedBy, eq_comm (a := Text.foldCase (Text.trimmed raw).toList)]
  exact Json.find?_label_eq_some_iff mem_all foldCase_label_injective

theorem ofLabel?_eq_none_iff {raw : String} :
    ofLabel? raw = none ↔ ∀ s : State, ¬s.IsNamedBy raw := by
  simp only [Option.eq_none_iff_forall_ne_some, ne_eq, ofLabel?_eq_some_iff]

end State

namespace Record

variable {time : Record → Instant} {a b : Record}

theorem IsBefore.asymm (hab : a.IsBefore time b) : ¬b.IsBefore time a := by
  rintro (hba | ⟨heq, hba⟩)
  · rcases hab with hab | ⟨heq, -⟩
    · exact lt_asymm hab hba
    · exact lt_irrefl _ (heq ▸ hba)
  · rcases hab with hab | ⟨-, hab⟩
    · exact lt_irrefl _ (heq ▸ hab)
    · exact String.lt_asymm hab hba

theorem IsBefore.ne (h : a.IsBefore time b) : a ≠ b := by
  rintro rfl
  exact h.asymm h

end Record

namespace Store

variable {s : Store} {wanted : Option State} {listed : List Record}

namespace IsListing

theorem nodup_id (h : s.IsListing wanted listed) : (listed.map Record.id).Nodup := by
  refine List.pairwise_map.2 (h.ordered.imp_of_mem ?_)
  intro a b ha hb hbefore hid
  exact hbefore.ne (eq_of_mem_of_id_eq ((h.mem_iff a).1 ha).1 ((h.mem_iff b).1 hb).1 hid)

/-- There is but one listing. -/
theorem eq_list (h : s.IsListing wanted listed) : listed = s.list wanted := by
  have hlist := s.isListing_list wanted
  -- The same records, each of them once, and no two of them come before each other.
  have hperm : listed.Perm (s.list wanted) := by
    apply (List.perm_ext_iff_of_nodup h.nodup_id.of_map hlist.nodup_id.of_map).2
    intro r
    rw [h.mem_iff, hlist.mem_iff]
  apply hperm.eq_of_pairwise _ h.ordered hlist.ordered
  intro a b _ _ hab hba
  exact absurd hba hab.asymm

end IsListing

/-- The records in one state are listed as they are among all. -/
theorem filter_list_none (s : Store) (state : State) :
    (s.list none).filter (·.state = state) = s.list (some state) := by
  have hall := s.isListing_list none
  apply IsListing.eq_list
  refine ⟨?_, hall.ordered.filter _⟩
  intro r
  rw [List.mem_filter, hall.mem_iff]
  simp

/-- The listing of one state is the part of the whole listing that is in this state. -/
theorem map_view_list_some (s : Store) (state : State) :
    (s.list (some state)).map Record.view =
      ((s.list none).map Record.view).filter (·.state = state) := by
  rw [List.filter_map, ← s.filter_list_none state]
  rfl

end Store

/-- A store that keeps a list of the requests that it has answered. -/
structure WatchedStore where
  store : Store
  requests : List Rehearsal.Request := []

def WatchedStore.noting {α : Type} (s : WatchedStore) (request : Rehearsal.Request)
    (ask : Store → Except StoreError α × Store) : Except StoreError α × WatchedStore :=
  let (result, store) := ask s.store
  (result, { store, requests := s.requests ++ [request] })

instance : RecordStore WatchedStore where
  create s r := s.noting .create (RecordStore.create · r)
  get s id := s.noting .get (RecordStore.get · id)
  latest s did := s.noting .latest (RecordStore.latest · did)
  list s state := s.noting .list (RecordStore.list · state)
  lease s limit now := s.noting .lease (RecordStore.lease · limit now)
  compareAndSwap s r expected := s.noting .compareAndSwap (RecordStore.compareAndSwap · r expected)

structure Http.Request.AsksFor (request : Request) (raw : Option String) : Prop where
  method_eq : request.method = "GET"
  path_eq : request.path = "/api/v1/registry/participants".toList
  values_eq : formValues request.query "state" = raw.toList

def Http.Request.listing : Option String → Request
  | none => { method := "GET", target := "/api/v1/registry/participants" }
  | some raw => {
      method := "GET"
      target := "/api/v1/registry/participants?state=" ++ String.ofList (formEncoded raw) }

/-- Every text may be asked for. -/
theorem Http.Request.asksFor_listing (raw : Option String) : (listing raw).AsksFor raw := by
  cases raw with
  | none =>
    refine ⟨rfl, ?_, ?_⟩
    · decide +kernel
    · have hquery : (listing none).query = [] := by decide +kernel
      rw [hquery]
      rfl
  | some raw =>
    have hhash : '#' ∉ "state".toList ++ '=' :: formEncoded raw := by
      have hvalue : '#' ∉ formEncoded raw := notMem_percentEncoded (by decide) _
      simp [hvalue]
    obtain ⟨hpath, hquery⟩ := @path_query_of_target (listing (some raw))
      "api/v1/registry/participants".toList ("state".toList ++ '=' :: formEncoded raw)
      (by simp [listing]) (by simp) hhash
    refine ⟨rfl, hpath, ?_⟩
    rw [hquery, formValues_formEncoded (by simp)]
    rfl

inductive Selects : Option String → Option State → Prop
  | all : Selects none none
  | one {raw : String} {s : State} (named : s.IsNamedBy raw) : Selects (some raw) (some s)

theorem Selects.not_unknown {raw : Option String} {wanted : Option State}
    (h : Selects raw wanted) : ¬∃ text ∈ raw, ∀ s : State, ¬s.IsNamedBy text := by
  rintro ⟨text, htext, hunknown⟩
  cases h with
  | all => cases htext
  | one hnamed =>
    cases htext
    exact hunknown _ hnamed

theorem Selects.unique {raw : Option String} {wanted other : Option State}
    (h : Selects raw wanted) (h' : Selects raw other) : wanted = other := by
  cases h with
  | all =>
    cases h'
    rfl
  | one hnamed =>
    cases h' with
    | one hnamed' => rw [hnamed.unique hnamed']

theorem exists_selects_of_known {raw : Option String}
    (h : ¬∃ text ∈ raw, ∀ s : State, ¬s.IsNamedBy text) : ∃ wanted, Selects raw wanted := by
  cases raw with
  | none => exact ⟨none, .all⟩
  | some text =>
    by_contra hnone
    refine h ⟨text, rfl, ?_⟩
    intro s hnamed
    exact hnone ⟨some s, .one hnamed⟩

/-- The response to a request for registrations, and the store after it, are what they have to
be. -/
structure WatchedStore.Lists (before : WatchedStore) (raw : Option String) (response : Response)
    (after : WatchedStore) : Prop where
  unknown_iff : response.status = 400 ↔ ∃ text ∈ raw, ∀ s : State, ¬s.IsNamedBy text
  unread_iff : after = before ↔ ∃ text ∈ raw, ∀ s : State, ¬s.IsNamedBy text
  unknown : ∀ text ∈ raw, (∀ s : State, ¬s.IsNamedBy text) →
    response = .ofJson 400 (.object [("error", .string ("unknown state '" ++ text ++ "'"))])
  shown_iff : response.status = 200 ↔ ∃ wanted, Selects raw wanted
  shown : ∀ wanted, Selects raw wanted →
    ∃ listed, before.store.IsListing wanted listed ∧ (listed.map Record.id).Nodup ∧
      response = .ofJson 200 (viewsToJson (listed.map Record.view)) ∧
      after = { before with requests := before.requests ++ [.list] }

namespace Registry

variable {κ : Type} {reg : Registry WatchedStore κ} {site : Site} {request : Request}
  {raw : Option String}

theorem listing_eq (reg : Registry WatchedStore κ) (wanted : Option State) :
    reg.listing wanted = (.ok ((reg.store.store.list wanted).map Record.view),
      { reg with store := { reg.store with requests := reg.store.requests ++ [.list] } }) := rfl

theorem answer_of_asksFor (h : request.AsksFor raw) (reg : Registry WatchedStore κ) (site : Site) :
    reg.answer site request = reg.answerListing request.query := by
  simp only [answer, h.path_eq, Endpoint.ofPath?_participants, h.method_eq, if_true, answerGet]

/-- The label of no state is refused, and the store is asked for nothing. -/
theorem answer_of_unknown {text : String} (h : request.AsksFor (some text))
    (hunknown : ∀ s : State, ¬s.IsNamedBy text) :
    reg.answer site request =
      (.ofJson 400 (.object [("error", .string ("unknown state '" ++ text ++ "'"))]), reg) := by
  rw [answer_of_asksFor h, answerListing, h.values_eq]
  simp only [Option.toList, State.ofLabel?_eq_none_iff.2 hunknown]

theorem answer_of_selects {wanted : Option State} (h : request.AsksFor raw)
    (hselects : Selects raw wanted) :
    reg.answer site request =
      (.ofJson 200 (viewsToJson ((reg.store.store.list wanted).map Record.view)),
        { reg with store := { reg.store with requests := reg.store.requests ++ [.list] } }) := by
  rw [answer_of_asksFor h, answerListing, h.values_eq]
  cases hselects with
  | all => simp only [Option.toList, listing_eq, Response.ofResult]
  | one hnamed =>
    simp only [Option.toList, State.ofLabel?_eq_some_iff.2 hnamed, listing_eq, Response.ofResult]

/-- A request is answered without a look at the store, or else by one. -/
theorem lists_answer (reg : Registry WatchedStore κ) (site : Site) (h : request.AsksFor raw) :
    reg.store.Lists raw (reg.answer site request).1 (reg.answer site request).2.store := by
  by_cases hunknown : ∃ text ∈ raw, ∀ s : State, ¬s.IsNamedBy text
  · have hnone : ∀ wanted, ¬Selects raw wanted := fun wanted hselects =>
      hselects.not_unknown hunknown
    obtain ⟨text, htext, hno⟩ := hunknown
    cases htext
    rw [answer_of_unknown h hno]
    exact {
      unknown_iff := iff_of_true rfl ⟨text, rfl, hno⟩
      unread_iff := iff_of_true rfl ⟨text, rfl, hno⟩
      unknown := by
        intro other hother _
        cases hother
        rfl
      shown_iff := iff_of_false (by simp [Response.ofJson]) (not_exists.2 hnone)
      shown := fun wanted hselects => absurd hselects (hnone wanted) }
  · obtain ⟨wanted, hselects⟩ := exists_selects_of_known hunknown
    have hlisting := reg.store.store.isListing_list wanted
    rw [answer_of_selects h hselects]
    exact {
      unknown_iff := iff_of_false (by simp [Response.ofJson]) hunknown
      unread_iff := by
        refine iff_of_false ?_ hunknown
        intro heq
        have hrequests := congrArg WatchedStore.requests heq
        simp at hrequests
      unknown := fun text htext hno => absurd ⟨text, htext, hno⟩ hunknown
      shown_iff := iff_of_true rfl ⟨wanted, hselects⟩
      shown := by
        intro other hother
        rw [hother.unique hselects]
        exact ⟨_, hlisting, hlisting.nodup_id, rfl, rfl⟩ }

/-- A text that is the label of no state is refused and nothing is read; otherwise one request is
made to the store, and the response has the registrations that are wanted, each of them once, in the
order of their creation. What is shown for the single states is what is shown for all, divided among
them without a change of order. -/
theorem listings_are_exact (reg : Registry WatchedStore κ) (site : Site) :
    (∀ raw, ∃ request : Request, request.AsksFor raw) ∧
    (∀ (request : Request) raw, request.AsksFor raw →
      reg.store.Lists raw (reg.answer site request).1 (reg.answer site request).2.store) ∧
    ∃ (all : List View) (part : State → List View),
      (∀ request : Request, request.AsksFor none →
        (reg.answer site request).1 = .ofJson 200 (viewsToJson all)) ∧
      (∀ (request : Request) text (s : State), request.AsksFor (some text) → s.IsNamedBy text →
        (reg.answer site request).1 = .ofJson 200 (viewsToJson (part s))) ∧
      (∀ s, (part s).Sublist all) ∧
      (∀ s t, s ≠ t → (part s).Disjoint (part t)) ∧
      ∀ view ∈ all, ∃ s, view ∈ part s := by
  let all := (reg.store.store.list none).map Record.view
  refine ⟨fun raw => ⟨_, Request.asksFor_listing raw⟩, fun request raw h => lists_answer reg site h,
    all, fun s => all.filter (·.state = s), ?_, ?_, ?_, ?_, ?_⟩
  · intro request h
    rw [answer_of_selects h .all]
  · intro request text s h hnamed
    rw [answer_of_selects h (.one hnamed), Store.map_view_list_some]
  · intro s
    exact List.filter_sublist
  · intro s t hne view hs ht
    have hstate : view.state = s := of_decide_eq_true (List.mem_filter.1 hs).2
    have hstate' : view.state = t := of_decide_eq_true (List.mem_filter.1 ht).2
    exact hne (hstate.symm.trans hstate')
  · intro view hview
    exact ⟨view.state, List.mem_filter.2 ⟨hview, decide_eq_true rfl⟩⟩

def onboarded : Record :=
  let did : Did := ⟨"web", "first", by constructor <;> simp [isMethodChar, Text.isBlank]⟩
  { Record.new ⟨"1"⟩ did .epoch with state := .onboarded }

def applicant : Record :=
  let did : Did := ⟨"web", "second", by constructor <;> simp [isMethodChar, Text.isBlank]⟩
  .new ⟨"2"⟩ did .epoch

/-- The label finds the registration in small letters and with white space around it. With white
space inside it is refused. -/
theorem onboarded_registration_is_listed :
    let reg : Registry WatchedStore Unit := {
      store := { store := ⟨[applicant, onboarded], by decide⟩ }, collaborators := () }
    let site : Site := {
      isReady := true, freshId := ⟨"3"⟩, now := .epoch, stallThreshold := .ofSeconds 900 }
    let found := reg.answer site (.listing (some " onboarded\n"))
    let refused := reg.answer site (.listing (some "on boarded"))
    found.1 = .ofJson 200 (viewsToJson [onboarded.view]) ∧ found.2.store.requests = [.list] ∧
      refused.1.status = 400 ∧ refused.2.store.requests = [] := by
  intro reg site found refused
  obtain ⟨-, hlists, -⟩ := listings_are_exact reg site
  have hnamed : State.onboarded.IsNamedBy " onboarded\n" := by
    rw [State.IsNamedBy]
    decide +kernel
  have hunnamed : ∃ text ∈ some "on boarded", ∀ s : State, ¬s.IsNamedBy text := by
    refine ⟨_, rfl, ?_⟩
    intro s
    cases s <;> (rw [State.IsNamedBy]; decide +kernel)
  have hfound := hlists _ _ (Request.asksFor_listing (some " onboarded\n"))
  have hrefused := hlists _ _ (Request.asksFor_listing (some "on boarded"))
  obtain ⟨listed, hlisting, -, hresponse, hafter⟩ := hfound.shown _ (.one hnamed)
  have hone : reg.store.store.IsListing (some .onboarded) [onboarded] := by
    refine ⟨?_, List.pairwise_singleton _ _⟩
    intro r
    constructor
    · intro hr
      rw [List.mem_singleton.1 hr]
      exact ⟨List.mem_cons_of_mem _ List.mem_cons_self, by rintro _ ⟨⟩; rfl⟩
    · rintro ⟨hr, hstate⟩
      rcases List.mem_cons.1 hr with rfl | hr
      · exact absurd (hstate _ rfl) (by decide)
      · exact hr
  rw [hlisting.eq_list, ← hone.eq_list] at hresponse
  refine ⟨hresponse, ?_, hrefused.unknown_iff.2 hunnamed, ?_⟩
  · simp only [found, hafter, reg, List.nil_append]
  · simp only [refused, hrefused.unread_iff.2 hunnamed, reg]

end Registry

end Onboarding
