import Highlight.Proofs.Counting
import Highlight.Provider.Waiter
import Std.Data.HashMap.Lemmas
import Std.Data.TreeMap.Lemmas

/-!
# The last registration wins

A history lists what was done with a registry of providers, newest first: calls on the registry,
polls of waiters, answers to promises. The registry settles lazily. A registration whose promise is
answered stays among the entries until somebody looks at it, and anybody may look: a caller of
`lookup`, or a waiter that was bound to the registration long ago.

What a look at a language finds is nevertheless a function of the history alone (`expected`): the
last registration of the language decides, together with the answer of its promise if it is a
deferred one.

The invariant is `Follows`. It relates every entry to the last registration of its language only up
to settling (`Settled`), which is what makes it stable under looks and polls: they enter an answer
that the history already holds. Settling compares numbers and nothing else. Deferred registrations
are numbered in the order in which they were made, in 64 bits, so a number tells which registration
it belongs to (`madeFor`) as long as there have been no more of them than there are numbers; behind
that, an old waiter could settle a registration that it was never bound to.
-/

namespace Highlight.Providers

variable {P : Type}

/-! ### Histories and runs -/

/-- Something done with a registry or with one of its waiters. -/
inductive Step (P : Type) where
  /-- A provider is registered. -/
  | register (language : String) (provider : P)
  /-- A provider that is still to come is registered. -/
  | defer (language : String) (promise : Promise)
  /-- The registration of a language is removed. -/
  | unregister (language : String)
  /-- A language is looked up without waiting. -/
  | look (language : String)
  /-- A waiter for a language is made; it is not polled yet. -/
  | wait (language : String)
  /-- The waiter with the given number is polled. -/
  | poll (waiter : Nat)
  /-- A promise is answered, with a provider or with nothing. It may be answered before it is
  registered, and it may be registered more than once. -/
  | resolve (promise : Promise) (answer : Option P)

/-- Steps, newest first. -/
abbrev History (P : Type) := List (Step P)

/-- A registry together with its waiters, numbered in the order in which they were made. -/
structure Session (P : Type) where
  providers : Providers P := {}
  waiters : List (Progress (Except Fault P) Waiter) := []

/-- One step. Polling a waiter that is done already, or that does not exist, changes nothing. -/
def Session.step (session : Session P) : Step P → Session P
  | .register language provider =>
      { session with providers := session.providers.register language provider }
  | .defer language promise =>
      { session with providers := session.providers.defer language promise }
  | .unregister language => { session with providers := (session.providers.unregister language).2 }
  | .look language => { session with providers := (session.providers.lookup language).2 }
  | .wait language => { session with waiters := session.waiters ++ [.pending (.fresh language)] }
  | .poll number =>
      match session.waiters[number]? with
      | some (.pending waiter) =>
          let (progress, providers) := waiter.poll session.providers
          ⟨providers, session.waiters.set number progress⟩
      | _ => session
  | .resolve promise answer =>
      { session with providers := session.providers.answer promise answer }

/-- The session after a history that begins with an empty registry. -/
def run : History P → Session P
  | [] => {}
  | step :: earlier => (run earlier).step step

/-! ### What a history asks for -/

/-- How many deferred registrations were made. -/
def deferrals : History P → Nat
  | [] => 0
  | .defer _ _ :: earlier => deferrals earlier + 1
  | _ :: earlier => deferrals earlier

/-- What was registered last for a language: nothing, or a provider, or a deferred registration. -/
def current (language : String) : History P → Option (ProviderEntry P)
  | [] => none
  | .register l provider :: earlier =>
      if l = language then some (.ready provider) else current language earlier
  | .defer l promise :: earlier =>
      if l = language then some (.deferred (.ofNat (deferrals earlier)) promise)
      else current language earlier
  | .unregister l :: earlier => if l = language then none else current language earlier
  | _ :: earlier => current language earlier

/-- The answer of a promise: the first one that was given. -/
def resolution (promise : Promise) : History P → Option (Option P)
  | [] => none
  | .resolve p answer :: earlier =>
      (resolution promise earlier).or (if p = promise then some answer else none)
  | _ :: earlier => resolution promise earlier

/-- What a look at a language has to find. -/
def expected (language : String) (h : History P) : Lookup P :=
  match current language h with
  | none => .missing
  | some (.ready provider) => .ready provider
  | some (.deferred _ promise) =>
      match resolution promise h with
      | none => .pending
      | some (some provider) => .ready provider
      | some none => .missing

/-- Whether a step registers or unregisters something for a language. -/
def Step.registersFor (language : String) : Step P → Bool
  | .register l _ => l == language
  | .defer l _ => l == language
  | .unregister l => l == language
  | _ => false

def Step.resolves (promise : Promise) : Step P → Bool
  | .resolve p _ => p == promise
  | _ => false

theorem current_cons_of_not_registersFor {language : String} {step : Step P}
    (hstep : step.registersFor language = false) (h : History P) :
    current language (step :: h) = current language h := by
  cases step with
  | register l _ => exact if_neg (by simpa [Step.registersFor] using hstep)
  | defer l promise => exact if_neg (by simpa [Step.registersFor] using hstep)
  | unregister l => exact if_neg (by simpa [Step.registersFor] using hstep)
  | _ => rfl

theorem resolution_cons_of_not_resolves {promise : Promise} {step : Step P}
    (hstep : step.resolves promise = false) (h : History P) :
    resolution promise (step :: h) = resolution promise h := by
  cases step with
  | resolve p answer =>
      have hp : ¬ p = promise := by simpa [Step.resolves] using hstep
      simp [resolution, hp]
  | _ => rfl

/-- Only the first answer counts. -/
theorem resolution_cons_of_some {promise : Promise} {h : History P} {answer : Option P}
    (hr : resolution promise h = some answer) (step : Step P) :
    resolution promise (step :: h) = some answer := by
  cases step with
  | resolve p other => simp [resolution, hr]
  | _ => exact hr

/-- What is found at a language changes only when something is registered for it, or when the
promise of its deferred registration is answered. -/
theorem expected_append {language : String} {h : History P} {later : History P}
    (hsteps : ∀ step ∈ later, step.registersFor language = false ∧
      ∀ registration promise, current language h = some (.deferred registration promise) →
        step.resolves promise = false) :
    expected language (later ++ h) = expected language h := by
  -- what is asked for is read off two things only, and none of the steps touches either
  suffices hsame : current language (later ++ h) = current language h ∧
      ∀ registration promise, current language h = some (.deferred registration promise) →
        resolution promise (later ++ h) = resolution promise h by
    unfold expected
    rw [hsame.1]
    split
    · rfl
    · rfl
    · next registration promise hcurrent => rw [hsame.2 registration promise hcurrent]
  induction later with
  | nil => exact ⟨rfl, fun _ _ _ => rfl⟩
  | cons step later ih =>
      obtain ⟨hcurrent, hresolution⟩ := ih fun s hs => hsteps s (List.mem_cons_of_mem _ hs)
      obtain ⟨hregisters, hresolves⟩ := hsteps step List.mem_cons_self
      refine ⟨?_, fun registration promise hp => ?_⟩
      · exact (current_cons_of_not_registersFor hregisters _).trans hcurrent
      · exact (resolution_cons_of_not_resolves (hresolves registration promise hp) _).trans
          (hresolution registration promise hp)

/-! ### The numbers of deferred registrations -/

/-- What the last deferred registration with a given number was made for: its language, and the
promise of it. -/
def madeFor (registration : UInt64) : History P → Option (String × Promise)
  | [] => none
  | .defer l promise :: earlier =>
      if registration = .ofNat (deferrals earlier) then some (l, promise)
      else madeFor registration earlier
  | _ :: earlier => madeFor registration earlier

theorem deferrals_cons_le (step : Step P) (h : History P) :
    deferrals h ≤ deferrals (step :: h) := by
  cases step with
  | defer l promise => exact Nat.le_succ _
  | _ => exact Nat.le_refl _

theorem deferrals_le_append (later h : History P) : deferrals h ≤ deferrals (later ++ h) := by
  induction later with
  | nil => exact Nat.le_refl _
  | cons step later ih => exact Nat.le_trans ih (deferrals_cons_le step _)

/-- Numbers are given out from zero on. -/
theorem madeFor_lt {registration : UInt64} {made : String × Promise} :
    ∀ {h : History P}, madeFor registration h = some made →
      registration.toNat < deferrals h := by
  intro h
  induction h with
  | nil => intro hmade; cases hmade
  | cons step h ih =>
      intro hmade
      cases step with
      | defer l promise =>
          by_cases heq : registration = .ofNat (deferrals h)
          · rw [heq]
            exact toNat_ofNat_lt_succ _
          · rw [madeFor, if_neg heq] at hmade
            exact Nat.lt_succ_of_lt (ih hmade)
      | _ => exact ih hmade

/-- As long as there are numbers left, a registration keeps its language and its promise. -/
theorem madeFor_cons {registration : UInt64} {made : String × Promise} {h : History P}
    {step : Step P} (hmade : madeFor registration h = some made)
    (hroom : deferrals (step :: h) ≤ UInt64.size) :
    madeFor registration (step :: h) = some made := by
  cases step with
  | defer l promise =>
      rw [madeFor, if_neg (ne_ofNat_of_toNat_lt (madeFor_lt hmade) hroom)]
      exact hmade
  | _ => exact hmade

theorem madeFor_append {registration : UInt64} {made : String × Promise} {h : History P}
    (hmade : madeFor registration h = some made) {later : History P}
    (hroom : deferrals (later ++ h) ≤ UInt64.size) :
    madeFor registration (later ++ h) = some made := by
  induction later with
  | nil => exact hmade
  | cons step later ih =>
      exact madeFor_cons (ih (Nat.le_trans (deferrals_cons_le step _) hroom)) hroom

/-- What is registered for a language was made for it. -/
theorem madeFor_of_current {registration : UInt64} {promise : Promise} {language : String} :
    ∀ {h : History P}, deferrals h ≤ UInt64.size →
      current language h = some (.deferred registration promise) →
        madeFor registration h = some (language, promise) := by
  intro h
  induction h with
  | nil => intro _ hc; cases hc
  | cons step h ih =>
      intro hroom hc
      by_cases hstep : step.registersFor language = true
      · -- of the steps that change the entry, only a deferral leaves a deferred one
        cases step with
        | register l provider =>
            have hl : l = language := by simpa [Step.registersFor] using hstep
            rw [current, if_pos hl] at hc
            cases hc
        | unregister l =>
            have hl : l = language := by simpa [Step.registersFor] using hstep
            rw [current, if_pos hl] at hc
            cases hc
        | defer l p =>
            have hl : l = language := by simpa [Step.registersFor] using hstep
            rw [current, if_pos hl] at hc
            cases hc
            rw [madeFor, if_pos rfl, hl]
        | _ => cases hstep
      · rw [current_cons_of_not_registersFor (by simpa using hstep)] at hc
        exact madeFor_cons (ih (Nat.le_trans (deferrals_cons_le step h) hroom) hc) hroom

/-- A waiter that is bound is bound to a registration that was made, and waits for its promise. -/
def KnownTo (h : History P) : Waiter → Prop
  | .fresh _ => True
  | .bound language registration promise => madeFor registration h = some (language, promise)

theorem KnownTo.cons {h : History P} {waiter : Waiter} (hknown : KnownTo h waiter) {step : Step P}
    (hroom : deferrals (step :: h) ≤ UInt64.size) : KnownTo (step :: h) waiter := by
  cases waiter with
  | fresh language => trivial
  | bound language registration promise => exact madeFor_cons hknown hroom

/-! ### What the operations do to a registry -/

/-- An answer is taken over unless there is one already. -/
theorem answer_answers (providers : Providers P) (promise : Promise) (answer : Option P)
    (p : Promise) :
    (providers.answer promise answer).answers[p]? =
      providers.answers[p]?.or (if promise = p then some answer else none) := by
  simp only [Providers.answer, Std.HashMap.getElem?_insertIfNew]
  by_cases heq : promise = p
  · subst heq
    by_cases hmem : promise ∈ providers.answers
    · simp [hmem]
    · simp [hmem]
  · simp [heq]

theorem isCurrent_iff {providers : Providers P} {language : String} {registration : UInt64} :
    providers.isCurrent language registration = true ↔
      ∃ promise, providers.entries[language]? = some (.deferred registration promise) := by
  unfold Providers.isCurrent
  split
  · next current promise heq => simp [heq]
  · next hnot =>
      simp only [Bool.false_eq_true, false_iff, not_exists]
      exact hnot registration

/-- Where the registration does not stand any more, settling it changes nothing at all. -/
theorem settle_of_not_current {providers : Providers P} {language : String}
    {registration : UInt64} (hnot : ¬ providers.isCurrent language registration = true)
    (answer : Option P) : providers.settle language registration answer = providers := by
  unfold Providers.settle
  rw [if_neg hnot]

theorem settle_entries {providers : Providers P} {language : String} {registration : UInt64}
    (hcurrent : providers.isCurrent language registration = true)
    (answer : Option P) (l : String) :
    (providers.settle language registration answer).entries[l]? =
      if language = l then answer.map .ready else providers.entries[l]? := by
  unfold Providers.settle
  rw [if_pos hcurrent]
  cases answer with
  | none => simp [Providers.unregister, Std.TreeMap.getElem?_erase]
  | some provider => simp [Providers.register, Std.TreeMap.getElem?_insert]

@[simp] theorem settle_answers (providers : Providers P) (language : String)
    (registration : UInt64) (answer : Option P) :
    (providers.settle language registration answer).answers = providers.answers := by
  unfold Providers.settle
  split
  · cases answer <;> rfl
  · rfl

@[simp] theorem settle_nextRegistration (providers : Providers P) (language : String)
    (registration : UInt64) (answer : Option P) :
    (providers.settle language registration answer).nextRegistration =
      providers.nextRegistration := by
  unfold Providers.settle
  split
  · cases answer <;> rfl
  · rfl

/-- A look leaves the registry as it is, or settles the answered registration it finds. -/
theorem lookup_snd (providers : Providers P) (language : String) :
    (providers.lookup language).2 = providers ∨
      ∃ registration promise answer,
        providers.entries[language]? = some (.deferred registration promise) ∧
        providers.answers[promise]? = some answer ∧
        (providers.lookup language).2 = providers.settle language registration answer := by
  unfold Providers.lookup
  split
  · exact Or.inl rfl
  · exact Or.inl rfl
  · next registration promise hentry =>
      split
      · exact Or.inl rfl
      · next answer hanswer => exact Or.inr ⟨registration, promise, answer, hentry, hanswer, rfl⟩

theorem pollBound_snd (language : String) (registration : UInt64) (promise : Promise)
    (providers : Providers P) :
    (Waiter.pollBound language registration promise providers).2 = providers ∨
      ∃ answer, providers.answers[promise]? = some answer ∧
        (Waiter.pollBound language registration promise providers).2 =
          providers.settle language registration answer := by
  unfold Waiter.pollBound
  split
  · exact Or.inl rfl
  · next answer hanswer => exact Or.inr ⟨answer, hanswer, rfl⟩

theorem poll_snd (waiter : Waiter) (providers : Providers P) :
    (waiter.poll providers).2 = providers ∨
      ∃ (language : String) (registration : UInt64) (promise : Promise) (answer : Option P),
        providers.answers[promise]? = some answer ∧
        (waiter.poll providers).2 = providers.settle language registration answer := by
  cases waiter with
  | bound language registration promise =>
      exact (pollBound_snd language registration promise providers).imp_right
        fun ⟨answer, h⟩ => ⟨language, registration, promise, answer, h⟩
  | fresh language =>
      -- a fresh waiter that finds a deferred registration goes on as a bound one
      simp only [Waiter.poll]
      split
      · exact Or.inl rfl
      · exact Or.inl rfl
      · next registration promise _ =>
          exact (pollBound_snd language registration promise providers).imp_right
            fun ⟨answer, h⟩ => ⟨language, registration, promise, answer, h⟩

/-- A bound waiter that has to go on waiting stays bound to what it was. -/
theorem pollBound_pending {language : String} {registration : UInt64} {promise : Promise}
    {providers : Providers P} {waiter : Waiter}
    (hpending : (Waiter.pollBound language registration promise providers).1 = .pending waiter) :
    waiter = .bound language registration promise := by
  unfold Waiter.pollBound at hpending
  split at hpending
  · cases hpending; rfl
  · cases hpending

/-! ### The invariant -/

/-- How an entry may look while a history asks for `wanted`: the same, or, if that is a deferred
registration whose promise is answered, what the answer makes of it. -/
inductive Settled (h : History P) :
    Option (ProviderEntry P) → Option (ProviderEntry P) → Prop
  | same (wanted : Option (ProviderEntry P)) : Settled h wanted wanted
  | entered {registration : UInt64} {promise : Promise} {answer : Option P}
      (hr : resolution promise h = some answer) :
      Settled h (some (.deferred registration promise)) (answer.map .ready)

theorem Settled.cons {h : History P} {wanted entry : Option (ProviderEntry P)}
    (hs : Settled h wanted entry) (step : Step P) : Settled (step :: h) wanted entry := by
  cases hs with
  | same => exact .same _
  | entered hr => exact .entered (resolution_cons_of_some hr step)

/-- An entry of a deferred registration is what the history asks for. -/
theorem Settled.eq_of_deferred {h : History P} {wanted : Option (ProviderEntry P)}
    {registration : UInt64} {promise : Promise}
    (hs : Settled h wanted (some (.deferred registration promise))) :
    wanted = some (.deferred registration promise) := by
  generalize hentry : some (ProviderEntry.deferred (P := P) registration promise) = entry at hs
  cases hs with
  | same => rfl
  | @entered _ _ answer _ => cases answer <;> cases hentry

/-- The next number of a registry and its answers are those of the history, whatever became of the
entries. -/
structure Counts (h : History P) (providers : Providers P) : Prop where
  next : providers.nextRegistration = .ofNat (deferrals h)
  answers : ∀ promise, providers.answers[promise]? = resolution promise h

namespace Counts

variable {h : History P} {providers : Providers P}

theorem cons_of_quiet (hc : Counts h providers) (step : Step P)
    (hnext : deferrals (step :: h) = deferrals h)
    (hresolves : ∀ promise, step.resolves promise = false) : Counts (step :: h) providers where
  next := hc.next.trans (congrArg UInt64.ofNat hnext.symm)
  answers p := (hc.answers p).trans (resolution_cons_of_not_resolves (hresolves p) h).symm

theorem defer (hc : Counts h providers) (language : String) (promise : Promise) :
    Counts (.defer language promise :: h) (providers.defer language promise) where
  next := by
    simp only [Providers.defer, deferrals, hc.next, UInt64.ofNat_add]
    rfl
  answers := hc.answers

theorem answer (hc : Counts h providers) (promise : Promise) (answer : Option P) :
    Counts (.resolve promise answer :: h) (providers.answer promise answer) where
  next := hc.next
  answers p := by rw [answer_answers, hc.answers p]; rfl

theorem settle (hc : Counts h providers) (language : String) (registration : UInt64)
    (answer : Option P) : Counts h (providers.settle language registration answer) where
  next := (settle_nextRegistration ..).trans hc.next
  answers p := by rw [settle_answers]; exact hc.answers p

theorem lookup (hc : Counts h providers) (language : String) :
    Counts h (providers.lookup language).2 := by
  rcases lookup_snd providers language with heq | ⟨registration, promise, answer, -, -, heq⟩
  · rw [heq]; exact hc
  · rw [heq]; exact hc.settle language registration answer

theorem poll (hc : Counts h providers) (waiter : Waiter) :
    Counts h (waiter.poll providers).2 := by
  rcases poll_snd waiter providers with heq | ⟨language, registration, promise, answer, -, heq⟩
  · rw [heq]; exact hc
  · rw [heq]; exact hc.settle language registration answer

/-- Every step keeps count, however many there were before. -/
theorem step {session : Session P} (hc : Counts h session.providers) (step : Step P) :
    Counts (step :: h) (session.step step).providers := by
  have hquiet := hc.cons_of_quiet step
  cases step with
  | register language provider =>
      have hquiet := hquiet rfl (fun _ => rfl)
      exact ⟨hquiet.next, hquiet.answers⟩
  | defer language promise => exact hc.defer language promise
  | unregister language =>
      have hquiet := hquiet rfl (fun _ => rfl)
      exact ⟨hquiet.next, hquiet.answers⟩
  | look language => exact (hquiet rfl (fun _ => rfl)).lookup language
  | wait language => exact hquiet rfl (fun _ => rfl)
  | resolve promise answer => exact hc.answer promise answer
  | poll number =>
      simp only [Session.step]
      split
      · next waiter _ => exact (hquiet rfl (fun _ => rfl)).poll waiter
      · exact hquiet rfl (fun _ => rfl)

theorem nil : Counts [] ({} : Providers P) where
  next := rfl
  answers _ := Std.HashMap.getElem?_empty

end Counts

theorem run_counts (h : History P) : Counts h (run h).providers := by
  induction h with
  | nil => exact .nil
  | cons step h ih => exact ih.step step

/-- A registry is as the history asks for, up to settling. -/
structure Tracks (h : History P) (providers : Providers P) : Prop extends Counts h providers where
  entries : ∀ language, Settled h (current language h) providers.entries[language]?

namespace Tracks

variable {h : History P} {providers : Providers P}

/-- The invariant depends on what the history asks for only. -/
theorem cons_of_quiet (ht : Tracks h providers) (step : Step P)
    (hnext : deferrals (step :: h) = deferrals h)
    (hregisters : ∀ language, step.registersFor language = false)
    (hresolves : ∀ promise, step.resolves promise = false) :
    Tracks (step :: h) providers where
  toCounts := ht.toCounts.cons_of_quiet step hnext hresolves
  entries l := by
    rw [current_cons_of_not_registersFor (hregisters l)]
    exact (ht.entries l).cons step

theorem register (ht : Tracks h providers) (language : String) (provider : P) :
    Tracks (.register language provider :: h) (providers.register language provider) := by
  refine ⟨⟨ht.next, ht.answers⟩, fun l => ?_⟩
  by_cases hl : language = l
  · simpa [Providers.register, current, hl] using Settled.same _
  · simpa [Providers.register, current, hl, Std.TreeMap.getElem?_insert] using
      (ht.entries l).cons _

theorem defer (ht : Tracks h providers) (language : String) (promise : Promise) :
    Tracks (.defer language promise :: h) (providers.defer language promise) := by
  refine ⟨ht.toCounts.defer language promise, fun l => ?_⟩
  by_cases hl : language = l
  · simpa [Providers.defer, current, hl, ht.next] using Settled.same _
  · simpa [Providers.defer, current, hl, Std.TreeMap.getElem?_insert] using
      (ht.entries l).cons _

theorem unregister (ht : Tracks h providers) (language : String) :
    Tracks (.unregister language :: h) (providers.unregister language).2 := by
  refine ⟨⟨ht.next, ht.answers⟩, fun l => ?_⟩
  by_cases hl : language = l
  · simpa [Providers.unregister, current, hl] using Settled.same _
  · simpa [Providers.unregister, current, hl, Std.TreeMap.getElem?_erase] using
      (ht.entries l).cons _

theorem answer (ht : Tracks h providers) (promise : Promise) (answer : Option P) :
    Tracks (.resolve promise answer :: h) (providers.answer promise answer) where
  toCounts := ht.toCounts.answer promise answer
  entries l := (ht.entries l).cons _

/-- An entry of a deferred registration was made for its language. -/
theorem madeFor (ht : Tracks h providers) (hroom : deferrals h ≤ UInt64.size) {language : String}
    {registration : UInt64} {promise : Promise}
    (hentry : providers.entries[language]? = some (.deferred registration promise)) :
    madeFor registration h = some (language, promise) :=
  madeFor_of_current hroom (Settled.eq_of_deferred (hentry ▸ ht.entries language))

/-- The number tells whether a registration still stands. -/
theorem isCurrent_iff (ht : Tracks h providers) (hroom : deferrals h ≤ UInt64.size)
    {language : String} {registration : UInt64} {promise : Promise}
    (hmade : Providers.madeFor registration h = some (language, promise)) :
    providers.isCurrent language registration = true ↔
      providers.entries[language]? = some (.deferred registration promise) := by
  refine Providers.isCurrent_iff.trans ⟨fun ⟨p, hentry⟩ => ?_, fun hentry => ⟨promise, hentry⟩⟩
  cases hmade.symm.trans (ht.madeFor hroom hentry)
  exact hentry

/-- Settling keeps the invariant: it enters what the history holds as the answer, and only where the
registration still stands. -/
theorem settle (ht : Tracks h providers) (hroom : deferrals h ≤ UInt64.size) {language : String}
    {registration : UInt64} {promise : Promise} {answer : Option P}
    (hmade : Providers.madeFor registration h = some (language, promise))
    (hanswer : providers.answers[promise]? = some answer) :
    Tracks h (providers.settle language registration answer) := by
  by_cases hcurrent : providers.isCurrent language registration = true
  · -- an entry that is still deferred was not settled, so it is what the history asks for
    refine ⟨ht.toCounts.settle language registration answer, fun l => ?_⟩
    rw [settle_entries hcurrent]
    by_cases hl : language = l
    · subst hl
      have hentry := (ht.isCurrent_iff hroom hmade).mp hcurrent
      have hwanted : current language h = some (.deferred registration promise) :=
        Settled.eq_of_deferred (hentry ▸ ht.entries language)
      rw [if_pos rfl, hwanted]
      exact .entered ((ht.answers promise).symm.trans hanswer)
    · rw [if_neg hl]
      exact ht.entries l
  · rw [settle_of_not_current hcurrent]
    exact ht

theorem lookup (ht : Tracks h providers) (hroom : deferrals h ≤ UInt64.size) (language : String) :
    Tracks h (providers.lookup language).2 := by
  rcases lookup_snd providers language with
    heq | ⟨registration, promise, answer, hentry, hanswer, heq⟩
  · rw [heq]; exact ht
  · rw [heq]; exact ht.settle hroom (ht.madeFor hroom hentry) hanswer

theorem pollBound (ht : Tracks h providers) (hroom : deferrals h ≤ UInt64.size) {language : String}
    {registration : UInt64} {promise : Promise}
    (hmade : Providers.madeFor registration h = some (language, promise)) :
    Tracks h (Waiter.pollBound language registration promise providers).2 := by
  rcases pollBound_snd language registration promise providers with heq | ⟨answer, hanswer, heq⟩
  · rw [heq]; exact ht
  · rw [heq]; exact ht.settle hroom hmade hanswer

theorem poll (ht : Tracks h providers) (hroom : deferrals h ≤ UInt64.size) {waiter : Waiter}
    (hknown : KnownTo h waiter) : Tracks h (waiter.poll providers).2 := by
  cases waiter with
  | bound language registration promise => exact ht.pollBound hroom hknown
  | fresh language =>
      simp only [Waiter.poll]
      split
      · exact ht
      · exact ht
      · next registration promise hentry => exact ht.pollBound hroom (ht.madeFor hroom hentry)

/-- A waiter that has to go on waiting is bound to a registration that was made. -/
theorem knownTo_of_poll (ht : Tracks h providers) (hroom : deferrals h ≤ UInt64.size)
    {waiter next : Waiter} (hknown : KnownTo h waiter)
    (hpending : (waiter.poll providers).1 = .pending next) : KnownTo h next := by
  cases waiter with
  | bound language registration promise => rw [pollBound_pending hpending]; exact hknown
  | fresh language =>
      simp only [Waiter.poll] at hpending
      split at hpending
      · cases hpending
      · cases hpending
      · next registration promise hentry =>
          rw [pollBound_pending hpending]
          exact ht.madeFor hroom hentry

/-- The invariant determines what a look finds. -/
theorem lookup_fst (ht : Tracks h providers) (language : String) :
    (providers.lookup language).1 = expected language h := by
  have hsettled := ht.entries language
  unfold Providers.lookup expected
  generalize hwanted : current language h = wanted at hsettled
  generalize hentry : providers.entries[language]? = entry at hsettled
  cases hsettled with
  | same =>
      -- the look settles the entry itself, if it has to
      cases wanted with
      | none => rfl
      | some wanted =>
          cases wanted with
          | ready provider => rfl
          | deferred registration promise =>
              simp only [← ht.answers promise]
              cases providers.answers[promise]? with
              | none => rfl
              | some answer => cases answer <;> rfl
  | @entered registration promise answer hr =>
      -- somebody else has looked before, and left what the look would have found
      simp only [hr]
      cases answer <;> rfl

theorem nil : Tracks [] ({} : Providers P) where
  toCounts := .nil
  entries _ := by simpa [current] using Settled.same _

end Tracks

/-- A session is as its history says: the registry is what the history asks for, and whoever waits
is bound to a registration that was made. -/
structure Follows (h : History P) (session : Session P) : Prop where
  tracks : Tracks h session.providers
  known : ∀ waiter, .pending waiter ∈ session.waiters → KnownTo h waiter

namespace Follows

variable {h : History P} {session : Session P}

theorem nil : Follows [] ({} : Session P) where
  tracks := .nil
  known _ hw := by cases hw

/-- A poll settles what was asked for before, and leaves its waiter bound to what it found. -/
theorem poll (hf : Follows h session) (hroom : deferrals h ≤ UInt64.size) (number : Nat) :
    Follows h (session.step (.poll number)) := by
  simp only [Session.step]
  split
  · next waiter hw =>
      have hknown := hf.known waiter (List.mem_of_getElem? hw)
      refine ⟨hf.tracks.poll hroom hknown, fun next hnext => ?_⟩
      rcases List.mem_or_eq_of_mem_set hnext with hold | heq
      · exact hf.known next hold
      · exact hf.tracks.knownTo_of_poll hroom hknown heq.symm
  · exact hf

/-- Every step keeps the invariant, as long as there are numbers left. Looks, waits and polls ask
for nothing. -/
theorem step (hf : Follows h session) (step : Step P)
    (hroom : deferrals (step :: h) ≤ UInt64.size) :
    Follows (step :: h) (session.step step) := by
  have hbefore : deferrals h ≤ UInt64.size := Nat.le_trans (deferrals_cons_le step h) hroom
  have hknown : ∀ waiter, .pending waiter ∈ session.waiters → KnownTo (step :: h) waiter :=
    fun waiter hw => (hf.known waiter hw).cons hroom
  have hquiet := hf.tracks.cons_of_quiet step
  cases step with
  | register language provider => exact ⟨hf.tracks.register language provider, hknown⟩
  | defer language promise => exact ⟨hf.tracks.defer language promise, hknown⟩
  | unregister language => exact ⟨hf.tracks.unregister language, hknown⟩
  | look language =>
      exact ⟨(hquiet rfl (fun _ => rfl) (fun _ => rfl)).lookup hroom language, hknown⟩
  | wait language =>
      refine ⟨hquiet rfl (fun _ => rfl) (fun _ => rfl), fun waiter hw => ?_⟩
      rcases List.mem_append.mp hw with hold | hnew
      · exact hknown waiter hold
      · cases List.mem_singleton.mp hnew
        trivial
  | resolve promise answer => exact ⟨hf.tracks.answer promise answer, hknown⟩
  | poll number =>
      exact poll ⟨hquiet rfl (fun _ => rfl) (fun _ => rfl), hknown⟩ hroom number

end Follows

/-- **The invariant holds after every history** with no more deferred registrations than there are
numbers for them. -/
theorem run_follows (h : History P) (hroom : deferrals h ≤ UInt64.size) : Follows h (run h) := by
  induction h with
  | nil => exact .nil
  | cons step h ih => exact (ih (Nat.le_trans (deferrals_cons_le step h) hroom)).step step hroom

/-! ### The main result -/

/-- **The last registration wins.** After every history, a look at a language finds what the history
asks for; the next deferred registration gets the next number; and no steps change what is found at
the language unless one of them registers or unregisters something for it or answers the promise of
the deferred registration that is current. This holds for as long as no number is given out twice:
settling compares the numbers of registrations, which have 64 bits. -/
theorem lookup_run (h : History P) (hroom : deferrals h ≤ UInt64.size) (language : String) :
    ((run h).providers.lookup language).1 = expected language h ∧
      (run h).providers.nextRegistration = .ofNat (deferrals h) ∧
      ∀ later : History P, deferrals (later ++ h) ≤ UInt64.size →
        (∀ step ∈ later, step.registersFor language = false ∧
          ∀ registration promise, current language h = some (.deferred registration promise) →
            step.resolves promise = false) →
        ((run (later ++ h)).providers.lookup language).1 =
          ((run h).providers.lookup language).1 := by
  have ht := (run_follows h hroom).tracks
  refine ⟨ht.lookup_fst language, ht.next, fun later hlater hsteps => ?_⟩
  rw [(run_follows (later ++ h) hlater).tracks.lookup_fst, ht.lookup_fst]
  exact expected_append hsteps

/-- A waiter is bound to a registration that is then replaced and answered: looks and polls leave
the language waiting for the newer registration. -/
theorem lookup_run_superseded :
    let h : History Nat := [.defer "rust" ⟨1⟩, .poll 0, .wait "rust", .defer "rust" ⟨0⟩]
    let later : History Nat := [.poll 0, .look "rust", .resolve ⟨0⟩ (some 7)]
    deferrals (later ++ h) ≤ UInt64.size ∧
      (∀ step ∈ later, step.registersFor "rust" = false ∧
        ∀ registration promise, current "rust" h = some (.deferred registration promise) →
          step.resolves promise = false) ∧
      ((run (later ++ h)).providers.lookup "rust").1 = .pending := by
  intro h later
  have hlater : deferrals (later ++ h) ≤ UInt64.size := by decide
  have hsteps : ∀ step ∈ later, step.registersFor "rust" = false ∧
      ∀ registration promise, current "rust" h = some (.deferred registration promise) →
        step.resolves promise = false := by
    simp [h, later, Step.registersFor, Step.resolves, current, deferrals]
  obtain ⟨hlookup, -, hframe⟩ :=
    lookup_run h (Nat.le_trans (deferrals_le_append later h) hlater) "rust"
  exact ⟨hlater, hsteps, (hframe later hlater hsteps).trans hlookup⟩

end Highlight.Providers
