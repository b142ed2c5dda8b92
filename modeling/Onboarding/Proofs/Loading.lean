import Onboarding.Proofs.Variables

namespace Onboarding

open Number

structure Backoff.IsGiven (b : Backoff) (env : Environment) : Prop where
  multiplier : env.Grows b.multiplier
  base : ∃ n, env.Counts .baseMillis n ∧ b.base = .ofMillis n
  cap : ∃ n, env.Counts .capMillis n ∧ b.cap = .ofMillis n

structure Tuning.IsGiven (t : Tuning) (env : Environment) : Prop where
  batchSize : env.Counts .batchSize t.batchSize
  workers : env.Counts .workers t.workers
  identity : env.Counts .identityAttempts t.budgets.identity
  credentials : env.Counts .credentialsAttempts t.budgets.credentials
  policy : env.Counts .policyAttempts t.budgets.policy
  backoff : t.backoff.IsGiven env
  stallThreshold : ∃ n, env.Counts .stallSeconds n ∧ t.stallThreshold = .ofSeconds n
  pollInterval : ∃ n, env.Counts .pollMillis n ∧ t.pollInterval = .ofMillis n
  callTimeout : ∃ n, env.Counts .callMillis n ∧ t.callTimeout = .ofMillis n

namespace Environment

variable {env : Environment}

theorem looks_factor (env : Environment) :
    env.Looks [.factor]
      (env.value Variable.factor.key (.nearest false 2) Double.ofText? >>= fun x =>
        if Backoff.isGrowing x then .ok x else .error (.invalidValue Variable.factor.key x.text))
      fun x => env.Grows x ∧ x.IsFactor := by
  rcases env.value_cases Variable.factor.key (.nearest false 2) Double.ofText? with
    ⟨x, hx, hvalue⟩ | ⟨raw, hraw, hvalue⟩
  · rw [hvalue]
    change env.Looks _ (if Backoff.isGrowing x then .ok x else _) _
    by_cases hfactor : x.IsFactor
    · rw [if_pos (Backoff.isGrowing_iff.2 hfactor)]
      apply Looks.later _ (Looks.ok ⟨hx, hfactor⟩)
      intro text hoffends
      cases hoffends with
      | garbledFactor h => exact h.not_gives hx
      | shrinking h hnot => exact hnot (hx.unique h ▸ hfactor)
    · rw [if_neg (mt Backoff.isGrowing_iff.1 hfactor)]
      exact Looks.error (.shrinking hx hfactor)
  · rw [hvalue]
    exact Looks.error (.garbledFactor hraw)

/-- A cap is compared with a base that was read before. -/
theorem looks_cap {base : Nat} (hbase : env.Counts .baseMillis base) :
    env.Looks [.quantity .capMillis]
      (env.natural Quantity.capMillis.key Quantity.capMillis.limit Quantity.capMillis.default >>=
        fun cap => if base ≤ cap ∧ cap ≤ Duration.day.millis then .ok cap
          else .error (.invalidValue Quantity.capMillis.key (toString cap)))
      (env.Counts .capMillis) := by
  have hday : Duration.day.millis = 86400000 := rfl
  rw [natural, hday]
  rcases env.value_cases Quantity.capMillis.key Quantity.capMillis.default
    (whole? Quantity.capMillis.limit) with ⟨cap, hcap, hvalue⟩ | ⟨raw, hraw, hvalue⟩
  · rw [hvalue]
    change env.Looks _ (if base ≤ cap ∧ cap ≤ 86400000 then .ok cap else _) _
    by_cases hbounds : base ≤ cap ∧ cap ≤ 86400000
    · rw [if_pos hbounds]
      apply Looks.later _ (Looks.ok hcap)
      intro text hoffends
      cases hoffends with
      | garbled h => exact h.not_gives hcap
      | zero hpositive => exact absurd hpositive Bool.false_ne_true
      | outOfBounds hbase' hcap' h =>
        have hbaseeq := hbase.unique hbase'
        have hcapeq := hcap.unique hcap'
        omega
    · rw [if_neg hbounds]
      exact Looks.error (.outOfBounds hbase hcap (by omega))
  · rw [hvalue]
    exact Looks.error (.garbled hraw)

theorem looks_backoff (env : Environment) :
    env.Looks [.factor, .quantity .baseMillis, .quantity .capMillis] (Backoff.load env)
      fun b => b.IsGiven env := by
  -- The checks stand around the rest of the computation, and are done before it.
  have hload : Backoff.load env =
      ((env.value Variable.factor.key (.nearest false 2) Double.ofText? >>= fun x =>
        if Backoff.isGrowing x then .ok x
        else .error (.invalidValue Variable.factor.key x.text)) >>= fun multiplier =>
      env.natural Quantity.baseMillis.key Quantity.baseMillis.limit Quantity.baseMillis.default >>=
        fun base =>
      (env.natural Quantity.capMillis.key Quantity.capMillis.limit Quantity.capMillis.default >>=
        fun cap => if base ≤ cap ∧ cap ≤ Duration.day.millis then .ok cap
          else .error (.invalidValue Quantity.capMillis.key (toString cap))) >>= fun cap =>
      .ok { base := .ofMillis base, multiplier, cap := .ofMillis cap }) := by
    rw [bind_assoc]
    refine congrArg (env.value _ _ _ >>= ·) (funext fun x => ?_)
    by_cases hx : Backoff.isGrowing x = true
    · rw [if_pos hx, if_pos hx]
      refine congrArg (env.natural _ _ _ >>= ·) (funext fun base => ?_)
      rw [bind_assoc]
      refine congrArg (env.natural _ _ _ >>= ·) (funext fun cap => ?_)
      split_ifs <;> rfl
    · rw [if_neg hx, if_neg hx]
      rfl
  rw [hload]
  refine env.looks_factor.bind fun x hx => ?_
  refine (env.looks_natural .baseMillis (by decide) rfl).bind fun base hbase => ?_
  refine (looks_cap hbase).bind fun cap hcap => ?_
  exact Looks.ok ⟨hx.1, ⟨base, hbase, rfl⟩, ⟨cap, hcap, rfl⟩⟩

/-- The tuning looks at all variables, each in its turn. -/
theorem looks_tuning (env : Environment) :
    env.Looks Variable.inOrder (Tuning.load env) fun t => t.IsGiven env := by
  unfold Tuning.load
  refine (env.looks_positive .batchSize (by decide) rfl).bind fun batchSize hbatchSize => ?_
  refine (env.looks_positive .workers (by decide) rfl).bind fun workers hworkers => ?_
  refine (env.looks_positive .identityAttempts (by decide) rfl).bind fun identity hidentity => ?_
  refine (env.looks_positive .credentialsAttempts (by decide) rfl).bind
    fun credentials hcredentials => ?_
  refine (env.looks_positive .policyAttempts (by decide) rfl).bind fun policy hpolicy => ?_
  refine env.looks_backoff.bind fun backoff hbackoff => ?_
  refine (env.looks_natural .stallSeconds (by decide) rfl).bind fun stall hstall => ?_
  refine (env.looks_positive .pollMillis (by decide) rfl).bind fun poll hpoll => ?_
  refine (env.looks_positive .callMillis (by decide) rfl).bind fun call hcall => ?_
  exact Looks.ok {
    batchSize := hbatchSize.1
    workers := hworkers.1
    identity := hidentity.1
    credentials := hcredentials.1
    policy := hpolicy.1
    backoff := hbackoff
    stallThreshold := ⟨stall, hstall, rfl⟩
    pollInterval := ⟨poll, hpoll.1, rfl⟩
    callTimeout := ⟨call, hcall.1, rfl⟩ }

/-- An error is about the first variable that offends. -/
theorem Looks.of_error {α : Type} {vs : List Variable} {x : Except SettingsError α}
    {good : α → Prop} (h : env.Looks vs x good) {e : SettingsError} (hx : x = .error e) :
    ∃ v text, env.FirstOffence vs v text ∧ e = .invalidValue v.key text := by
  rcases h with ⟨v, text, hfirst, hx'⟩ | ⟨-, a, hx', -⟩
  · rw [hx] at hx'
    exact ⟨v, text, hfirst, Except.error.inj hx'⟩
  · rw [hx] at hx'
    cases hx'

theorem Looks.eq_error {α : Type} {vs : List Variable} {x : Except SettingsError α}
    {good : α → Prop} (h : env.Looks vs x good) {v : Variable} {text : String}
    (hfirst : env.FirstOffence vs v text) : x = .error (.invalidValue v.key text) := by
  rcases h with ⟨w, text', hfirst', hx⟩ | ⟨haccepts, -⟩
  · obtain ⟨rfl, rfl⟩ := hfirst.unique hfirst'
    exact hx
  · exact absurd haccepts hfirst.not_accepts

theorem Looks.of_ok {α : Type} {vs : List Variable} {x : Except SettingsError α}
    {good : α → Prop} (h : env.Looks vs x good) {a : α} (hx : x = .ok a) :
    env.Accepts vs ∧ good a := by
  rcases h with ⟨v, text, -, hx'⟩ | ⟨haccepts, b, hx', hb⟩
  · rw [hx] at hx'
    cases hx'
  · rw [hx] at hx'
    cases hx'
    exact ⟨haccepts, hb⟩

theorem Looks.exists_eq_ok {α : Type} {vs : List Variable} {x : Except SettingsError α}
    {good : α → Prop} (h : env.Looks vs x good) (haccepts : env.Accepts vs) :
    ∃ a, x = .ok a ∧ good a := by
  rcases h with ⟨v, text, hfirst, -⟩ | ⟨-, h⟩
  · exact absurd haccepts hfirst.not_accepts
  · exact h

theorem Accepts.pos {vs : List Variable} {q : Quantity} {n : Nat} (h : env.Accepts vs)
    (hmem : .quantity q ∈ vs) (hpositive : q.positive = true) (hn : env.Counts q n) : 1 ≤ n := by
  rcases Nat.eq_zero_or_pos n with rfl | hpos
  · exact absurd (.zero hpositive hn) (h _ hmem "0")
  · exact hpos

end Environment

structure Tuning.IsSound (t : Tuning) : Prop where
  -- What work needs to be done at all.
  batchSize : 1 ≤ t.batchSize
  workers : 1 ≤ t.workers
  identity : 1 ≤ t.budgets.identity
  credentials : 1 ≤ t.budgets.credentials
  policy : 1 ≤ t.budgets.policy
  multiplier : t.backoff.multiplier.IsFactor
  base_le_cap : t.backoff.base ≤ t.backoff.cap
  cap_le_day : t.backoff.cap ≤ .day
  pollInterval : .zero < t.pollInterval
  callTimeout : .zero < t.callTimeout

theorem Duration.zero_lt_ofMillis {n : Nat} (h : 1 ≤ n) : zero < ofMillis n := by
  change 0 < n * 1000000
  omega

theorem Duration.ofMillis_le_ofMillis {m n : Nat} (h : m ≤ n) : ofMillis m ≤ ofMillis n :=
  Nat.mul_le_mul_right 1000000 h

theorem Environment.Counts.unique_of_map {env : Environment} {q : Quantity} {f : Nat → Duration}
    {d e : Duration} (hd : ∃ n, env.Counts q n ∧ d = f n) (he : ∃ n, env.Counts q n ∧ e = f n) :
    d = e := by
  obtain ⟨m, hm, rfl⟩ := hd
  obtain ⟨n, hn, rfl⟩ := he
  rw [hm.unique hn]

attribute [ext] Budgets Backoff Tuning Settings

theorem Backoff.IsGiven.unique {env : Environment} {b c : Backoff} (hb : b.IsGiven env)
    (hc : c.IsGiven env) : b = c := by
  apply Backoff.ext
  · exact Environment.Counts.unique_of_map hb.base hc.base
  · exact hb.multiplier.unique hc.multiplier
  · exact Environment.Counts.unique_of_map hb.cap hc.cap

namespace Tuning.IsGiven

variable {env : Environment} {t u : Tuning}

theorem unique (ht : t.IsGiven env) (hu : u.IsGiven env) : t = u := by
  apply Tuning.ext
  · exact Environment.Counts.unique_of_map ht.pollInterval hu.pollInterval
  · exact ht.batchSize.unique hu.batchSize
  · exact ht.workers.unique hu.workers
  · apply Budgets.ext
    · exact ht.identity.unique hu.identity
    · exact ht.credentials.unique hu.credentials
    · exact ht.policy.unique hu.policy
  · exact ht.backoff.unique hu.backoff
  · exact Environment.Counts.unique_of_map ht.callTimeout hu.callTimeout
  · exact Environment.Counts.unique_of_map ht.stallThreshold hu.stallThreshold

theorem isSound (ht : t.IsGiven env) (h : env.Accepts Variable.inOrder) : t.IsSound := by
  obtain ⟨base, hbase, hbaseeq⟩ := ht.backoff.base
  obtain ⟨cap, hcap, hcapeq⟩ := ht.backoff.cap
  obtain ⟨poll, hpoll, hpolleq⟩ := ht.pollInterval
  obtain ⟨call, hcall, hcalleq⟩ := ht.callTimeout
  -- The base has no bound of its own: with a base above it, the cap is what offends.
  have hbounds : base ≤ cap ∧ cap ≤ 86400000 := by
    by_contra hout
    have hoffends : env.Offends (.quantity .capMillis) (toString cap) :=
      .outOfBounds hbase hcap (by omega)
    exact h _ (by simp [Variable.inOrder]) _ hoffends
  exact {
    batchSize := h.pos (by simp [Variable.inOrder]) rfl ht.batchSize
    workers := h.pos (by simp [Variable.inOrder]) rfl ht.workers
    identity := h.pos (by simp [Variable.inOrder]) rfl ht.identity
    credentials := h.pos (by simp [Variable.inOrder]) rfl ht.credentials
    policy := h.pos (by simp [Variable.inOrder]) rfl ht.policy
    multiplier := by
      by_contra hnot
      exact h .factor (by simp [Variable.inOrder]) _ (.shrinking ht.backoff.multiplier hnot)
    base_le_cap := by
      rw [hbaseeq, hcapeq]
      exact Duration.ofMillis_le_ofMillis hbounds.1
    cap_le_day := by
      have hday : Duration.day = .ofMillis 86400000 := rfl
      rw [hcapeq, hday]
      exact Duration.ofMillis_le_ofMillis hbounds.2
    pollInterval := by
      rw [hpolleq]
      exact Duration.zero_lt_ofMillis (h.pos (by simp [Variable.inOrder]) rfl hpoll)
    callTimeout := by
      rw [hcalleq]
      exact Duration.zero_lt_ofMillis (h.pos (by simp [Variable.inOrder]) rfl hcall) }

end Tuning.IsGiven

namespace Settings

structure IsGiven (s : Settings) (env : Environment) : Prop where
  stage : s.stage = .ofText ((env "APP_ENV").getD "development")
  host : s.host = (env "APP_HOST").getD "127.0.0.1"
  port : env.Opens s.port
  logFilter : s.logFilter = (env "APP_LOG_LEVEL").getD "info"
  tuning : s.tuning.IsGiven env

/-- The variables give one setting only. -/
theorem IsGiven.unique {env : Environment} {s t : Settings} (hs : s.IsGiven env)
    (ht : t.IsGiven env) : s = t := by
  apply Settings.ext
  · exact hs.stage.trans ht.stage.symm
  · exact hs.host.trans ht.host.symm
  · exact hs.port.unique ht.port
  · exact hs.logFilter.trans ht.logFilter.symm
  · exact hs.tuning.unique ht.tuning

/-- What the variables make of an attempt to load the settings. -/
structure IsVerdict (env : Environment) (result : Except SettingsError Settings) : Prop where
  port_iff : result = .error .invalidPort ↔ ∃ raw, env.Garbles "APP_PORT" portOfText? raw
  value_iff : ∀ key text, result = .error (.invalidValue key text) ↔
    (∃ port, env.Opens port) ∧
      ∃ v, v.key = key ∧ env.FirstOffence Variable.inOrder v text
  not_host : result ≠ .error .invalidHost
  ok_iff : ∀ s, result = .ok s ↔ env.Accepts Variable.inOrder ∧ s.IsGiven env
  exists_ok : (∃ port, env.Opens port) → env.Accepts Variable.inOrder → ∃ s, result = .ok s
  sound : ∀ s, result = .ok s → s.tuning.IsSound

/-- The port is read before all that tunes the work. -/
theorem load_cases (env : Environment) :
    (∃ raw, env.Garbles "APP_PORT" portOfText? raw ∧ load env = .error .invalidPort) ∨
    (∃ port, env.Opens port) ∧ env.Looks Variable.inOrder (load env) fun s => s.IsGiven env := by
  have hdefault : portOfText? "3000" = some 3000 := by decide
  -- The default can be read, so that only a text that is set can fail.
  unfold load
  cases hread : portOfText? ((env "APP_PORT").getD "3000") with
  | none =>
    cases hset : env "APP_PORT" with
    | none =>
      rw [hset, Option.getD_none, hdefault] at hread
      cases hread
    | some raw =>
      rw [hset, Option.getD_some] at hread
      exact Or.inl ⟨raw, ⟨hset, hread⟩, rfl⟩
  | some port =>
    have hport : env.Opens port := by
      cases hset : env "APP_PORT" with
      | none =>
        rw [hset, Option.getD_none, hdefault] at hread
        exact Or.inl ⟨hset, (Option.some.inj hread).symm⟩
      | some raw =>
        rw [hset, Option.getD_some] at hread
        exact Or.inr ⟨raw, hset, hread⟩
    refine Or.inr ⟨⟨port, hport⟩, ?_⟩
    refine env.looks_tuning.bind fun tuning htuning => ?_
    exact Environment.Looks.ok ⟨rfl, rfl, hport, rfl, htuning⟩

/-- Settings are refused for a port that cannot be read, else for the first variable that offends;
otherwise they are loaded, and they are what the variables give, with which work can be done. -/
theorem loading_is_exact (env : Environment) : IsVerdict env (load env) := by
  -- The port is looked at before all the rest.
  rcases load_cases env with ⟨raw, hraw, hload⟩ | ⟨⟨port, hport⟩, hlooks⟩
  · have hno : ¬∃ port, env.Opens port := by
      rintro ⟨port, hport⟩
      exact hraw.not_gives hport
    rw [hload]
    exact {
      port_iff := ⟨fun _ => ⟨raw, hraw⟩, fun _ => rfl⟩
      value_iff := fun key text => ⟨fun h => (by cases h), fun h => absurd h.1 hno⟩
      not_host := fun h => by cases h
      ok_iff := fun s => ⟨fun h => (by cases h), fun h => absurd ⟨s.port, h.2.port⟩ hno⟩
      exists_ok := fun h => absurd h hno
      sound := fun s h => by cases h }
  · have hread : ¬∃ raw, env.Garbles "APP_PORT" portOfText? raw := by
      rintro ⟨raw, hraw⟩
      exact hraw.not_gives hport
    refine ⟨⟨?_, fun h => absurd h hread⟩, ?_, ?_, ?_, ?_, ?_⟩
    · intro h
      obtain ⟨v, text, -, he⟩ := hlooks.of_error h
      cases he
    · intro key text
      constructor
      · intro h
        obtain ⟨v, text', hfirst, he⟩ := hlooks.of_error h
        cases he
        exact ⟨⟨port, hport⟩, v, rfl, hfirst⟩
      · rintro ⟨-, v, rfl, hfirst⟩
        exact hlooks.eq_error hfirst
    · intro h
      obtain ⟨v, text, -, he⟩ := hlooks.of_error h
      cases he
    · intro s
      constructor
      · intro h
        exact hlooks.of_ok h
      · rintro ⟨haccepts, hs⟩
        obtain ⟨t, ht, hgiven⟩ := hlooks.exists_eq_ok haccepts
        rw [ht, hgiven.unique hs]
    · intro _ haccepts
      obtain ⟨s, hs, -⟩ := hlooks.exists_eq_ok haccepts
      exact ⟨s, hs⟩
    · intro s h
      obtain ⟨haccepts, hs⟩ := hlooks.of_ok h
      exact hs.tuning.isSound haccepts

def impatient : Environment := fun key =>
  if key = "REGISTRY_BACKOFF_BASE_MS" then some " 400000" else none

/-- A variable may offend that is not set: its default does not go with another variable. -/
theorem default_cap_is_refused :
    load impatient = .error (.invalidValue "REGISTRY_BACKOFF_CAP_MS" "300000") ∧
    ∃ v, v.key = "REGISTRY_BACKOFF_CAP_MS" ∧
      impatient.FirstOffence Variable.inOrder v "300000" := by
  have hload : load impatient = .error (.invalidValue "REGISTRY_BACKOFF_CAP_MS" "300000") := by
    have htuning : Tuning.load impatient =
        .error (.invalidValue "REGISTRY_BACKOFF_CAP_MS" "300000") := by decide +kernel
    change (Tuning.load impatient >>= _) = _
    rw [htuning]
    rfl
  exact ⟨hload, (((loading_is_exact impatient).value_iff _ _).1 hload).2⟩

end Settings

end Onboarding
