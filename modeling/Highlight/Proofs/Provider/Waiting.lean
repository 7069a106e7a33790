import Highlight.Proofs.Provider.History

/-!
# Waiters keep to the entry they found

A waiter looks its language up at its first poll and never again. If it finds a deferred
registration, it shows from then on what it has seen of the answer of that registration's promise
(`seen`): nothing until a poll that comes after the answer, and that answer for good afterwards.
Whatever is registered for the language meanwhile does not matter.

Two facts about numbers make waiters agree with one another and keep out of later registrations, for
as long as no number is given out twice. A deferred registration was made for one language and one
promise (`madeFor`), so all who are bound to it give the same answer. And once its entry is gone it
never comes back (`isCurrent_step`), so whoever completes later finds nothing to settle.
-/

namespace Highlight.Providers

variable {P : Type}

/-! ### What a waiter shows -/

/-- The answer of a promise as far as a waiter has seen it: as of the waiter's last poll. -/
def seen (number : Nat) (promise : Promise) : History P → Option (Option P)
  | [] => none
  | .poll n :: earlier =>
      if n = number then resolution promise earlier else seen number promise earlier
  | _ :: earlier => seen number promise earlier

/-- What a waiter bound to a registration shows of the answer it has seen. -/
def awaiting (language : String) (registration : UInt64) (promise : Promise) :
    Option (Option P) → Progress (Except Fault P) Waiter
  | none => .pending (.bound language registration promise)
  | some answer => .done (Waiter.outcome language answer)

/-- A waiter for a language was polled for the first time when the language had a given entry. -/
def FirstPolled (number : Nat) (language : String) (entry : Option (ProviderEntry P))
    (h : History P) : Prop :=
  ∃ before later, h = later ++ .poll number :: before ∧
    (run before).waiters[number]? = some (.pending (.fresh language)) ∧
    (run before).providers.entries[language]? = entry

theorem resolution_of_seen {number : Nat} {promise : Promise} {answer : Option P} :
    ∀ {h : History P}, seen number promise h = some answer →
      resolution promise h = some answer := by
  intro h
  induction h with
  | nil => intro hseen; cases hseen
  | cons step h ih =>
      intro hseen
      cases step with
      | poll n =>
          by_cases hn : n = number
          · rw [seen, if_pos hn] at hseen
            exact hseen
          · rw [seen, if_neg hn] at hseen
            exact ih hseen
      | _ => exact resolution_cons_of_some (ih hseen) _

theorem pollBound_fst (language : String) (registration : UInt64) (promise : Promise)
    (providers : Providers P) :
    (Waiter.pollBound language registration promise providers).1 =
      awaiting language registration promise providers.answers[promise]? := by
  unfold Waiter.pollBound
  split
  · next hanswer => rw [hanswer]; rfl
  · next answer hanswer => rw [hanswer]; rfl

theorem pollBound_snd_of_not_current {language : String} {registration : UInt64}
    {providers : Providers P} (hnot : ¬ providers.isCurrent language registration = true)
    (promise : Promise) :
    (Waiter.pollBound language registration promise providers).2 = providers := by
  unfold Waiter.pollBound
  split
  · rfl
  · exact settle_of_not_current hnot _

/-! ### Steps and waiters -/

namespace Session

variable {session : Session P} {number : Nat}

theorem step_poll_pending {waiter : Waiter}
    (hw : session.waiters[number]? = some (.pending waiter)) :
    session.step (.poll number) =
      ⟨(waiter.poll session.providers).2,
        session.waiters.set number (waiter.poll session.providers).1⟩ := by
  simp only [Session.step, hw]

theorem step_poll_done {result : Except Fault P}
    (hw : session.waiters[number]? = some (.done result)) :
    session.step (.poll number) = session := by
  simp only [Session.step, hw]

theorem waiters_step_poll {waiter : Waiter}
    (hw : session.waiters[number]? = some (.pending waiter)) :
    (session.step (.poll number)).waiters[number]? =
      some (waiter.poll session.providers).1 := by
  obtain ⟨hlt, -⟩ := List.getElem?_eq_some_iff.mp hw
  rw [step_poll_pending hw]
  simp [hlt]

/-- Only its own polls move a waiter. -/
theorem waiters_step_of_ne {progress : Progress (Except Fault P) Waiter} {step : Step P}
    (hw : session.waiters[number]? = some progress) (hstep : step ≠ .poll number) :
    (session.step step).waiters[number]? = some progress := by
  cases step with
  | wait language =>
      obtain ⟨hlt, -⟩ := List.getElem?_eq_some_iff.mp hw
      simp only [Session.step]
      rw [List.getElem?_append_left hlt]
      exact hw
  | poll n =>
      have hn : n ≠ number := fun heq => hstep (heq ▸ rfl)
      simp only [Session.step]
      split
      · simp only
        rw [List.getElem?_set_ne hn]
        exact hw
      · exact hw
  | _ => exact hw

end Session

theorem waiters_done_append {h : History P} {number : Nat} {result : Except Fault P}
    (hw : (run h).waiters[number]? = some (.done result)) (later : History P) :
    (run (later ++ h)).waiters[number]? = some (.done result) := by
  induction later with
  | nil => exact hw
  | cons step later ih =>
      by_cases hstep : step = .poll number
      · subst hstep
        rw [List.cons_append, run, Session.step_poll_done ih]
        exact ih
      · exact Session.waiters_step_of_ne ih hstep

/-! ### Waiters after their first poll -/

/-- A waiter that finds no entry has failed for good. -/
theorem FirstPolled.of_absent {h : History P} {number : Nat} {language : String}
    (hw : FirstPolled number language none h) :
    (run h).waiters[number]? = some (.done (.error (.noTokenizer language))) := by
  obtain ⟨before, later, rfl, hfresh, hentry⟩ := hw
  refine waiters_done_append ?_ later
  rw [run, Session.waiters_step_poll hfresh]
  simp only [Waiter.poll, hentry]

/-- A waiter that finds a provider has it for good. -/
theorem FirstPolled.of_ready {h : History P} {number : Nat} {language : String} {provider : P}
    (hw : FirstPolled number language (some (.ready provider)) h) :
    (run h).waiters[number]? = some (.done (.ok provider)) := by
  obtain ⟨before, later, rfl, hfresh, hentry⟩ := hw
  refine waiters_done_append ?_ later
  rw [run, Session.waiters_step_poll hfresh]
  simp only [Waiter.poll, hentry]

/-- One poll of a waiter that shows what it has seen of an answer. -/
theorem awaiting_poll {h : History P} {number : Nat} {language : String}
    {registration : UInt64} {promise : Promise} {answer : Option (Option P)}
    (hanswer : ∀ a, answer = some a → resolution promise h = some a)
    (hw : (run h).waiters[number]? = some (awaiting language registration promise answer)) :
    (run (.poll number :: h)).waiters[number]? =
      some (awaiting language registration promise (resolution promise h)) := by
  cases answer with
  | none =>
      rw [run, Session.waiters_step_poll hw]
      simp only [Waiter.poll, pollBound_fst, (run_counts h).answers]
  | some a =>
      rw [run, Session.step_poll_done hw, hanswer a rfl]
      exact hw

/-- **A bound waiter shows what it has seen of the answer of its promise.** -/
theorem FirstPolled.of_deferred {h : History P} {number : Nat} {language : String}
    {registration : UInt64} {promise : Promise}
    (hw : FirstPolled number language (some (.deferred registration promise)) h) :
    (run h).waiters[number]? =
      some (awaiting language registration promise (seen number promise h)) := by
  obtain ⟨before, later, rfl, hfresh, hentry⟩ := hw
  induction later with
  | nil =>
      rw [List.nil_append, seen, if_pos rfl, run, Session.waiters_step_poll hfresh]
      simp only [Waiter.poll, hentry, pollBound_fst, (run_counts before).answers]
  | cons step later ih =>
      -- only the waiter's own polls move it, and only they move what it has seen
      by_cases hstep : step = .poll number
      · subst hstep
        rw [List.cons_append, seen, if_pos rfl]
        exact awaiting_poll (fun _ hseen => resolution_of_seen hseen) ih
      · have hsame : seen number promise (step :: (later ++ .poll number :: before)) =
            seen number promise (later ++ .poll number :: before) := by
          cases step with
          | poll n => exact if_neg fun hn : n = number => hstep (hn ▸ rfl)
          | _ => rfl
        rw [List.cons_append, hsame]
        exact Session.waiters_step_of_ne ih hstep

/-- Every waiter is still fresh or has been polled for a first time. -/
theorem fresh_or_firstPolled {number : Nat} {progress : Progress (Except Fault P) Waiter} :
    ∀ {h : History P}, (run h).waiters[number]? = some progress →
      (∃ language, progress = .pending (.fresh language)) ∨
        ∃ language entry, FirstPolled number language entry h := by
  intro h
  induction h generalizing progress with
  | nil => intro hw; simp [run] at hw
  | cons step h ih =>
      intro hw
      cases hold : (run h).waiters[number]? with
      | none =>
          -- a waiter that was not there can only have been made by this step
          cases step with
          | wait language =>
              have hge : (run h).waiters.length ≤ number := List.getElem?_eq_none_iff.mp hold
              simp only [run, Session.step, List.getElem?_append_right hge] at hw
              cases hrest : number - (run h).waiters.length with
              | zero =>
                  rw [hrest] at hw
                  exact Or.inl ⟨language, (Option.some.inj hw).symm⟩
              | succ k => rw [hrest] at hw; simp at hw
          | poll n =>
              simp only [run, Session.step] at hw
              split at hw
              · rw [List.getElem?_eq_none_iff] at hold
                simp [hold] at hw
              · rw [hold] at hw; cases hw
          | _ => simp only [run, Session.step] at hw; rw [hold] at hw; cases hw
      | some before =>
          -- a fresh waiter is first polled by this step, if it is polled by it at all
          rcases ih hold with ⟨language, rfl⟩ | ⟨language, entry, b, later, rfl, hb⟩
          · by_cases hstep : step = .poll number
            · subst hstep
              exact Or.inr ⟨language, _, h, [], rfl, hold, rfl⟩
            · refine Or.inl ⟨language, ?_⟩
              have hkeep := Session.waiters_step_of_ne hold hstep
              exact Option.some.inj (hw.symm.trans hkeep)
          · exact Or.inr ⟨language, entry, b, step :: later, rfl, hb⟩

/-! ### Registrations that are gone -/

/-- The registration that a waiter is bound to was made for the waiter's language, and for the
promise that the waiter waits for. -/
theorem FirstPolled.madeFor_eq {h : History P} (hroom : deferrals h ≤ UInt64.size) {number : Nat}
    {language : String} {registration : UInt64} {promise : Promise}
    (hw : FirstPolled number language (some (.deferred registration promise)) h) :
    madeFor registration h = some (language, promise) := by
  obtain ⟨before, later, rfl, -, hentry⟩ := hw
  have hpolled : deferrals (.poll number :: before) ≤ UInt64.size :=
    Nat.le_trans (deferrals_le_append later _) hroom
  have hmade := (run_follows before hpolled).tracks.madeFor hpolled hentry
  exact madeFor_append (madeFor_cons hmade hpolled) hroom

/-- A registration stands as long as its entry does. -/
theorem isCurrent_of_entries {providers other : Providers P} {language : String}
    {registration : UInt64}
    (hentries : ∀ promise, other.entries[language]? = some (.deferred registration promise) →
      providers.entries[language]? = some (.deferred registration promise))
    (hcurrent : other.isCurrent language registration = true) :
    providers.isCurrent language registration = true := by
  obtain ⟨promise, hentry⟩ := isCurrent_iff.mp hcurrent
  exact isCurrent_iff.mpr ⟨promise, hentries promise hentry⟩

/-- Settling never brings back a deferred entry. -/
theorem isCurrent_of_settle {providers : Providers P} {l language : String}
    {r registration : UInt64} {answer : Option P}
    (hcurrent : (providers.settle l r answer).isCurrent language registration = true) :
    providers.isCurrent language registration = true := by
  by_cases hsettled : providers.isCurrent l r = true
  · refine isCurrent_of_entries (fun promise hentry => ?_) hcurrent
    rw [settle_entries hsettled] at hentry
    split at hentry
    · cases answer <;> cases hentry
    · exact hentry
  · rwa [settle_of_not_current hsettled] at hcurrent

theorem isCurrent_of_poll {providers : Providers P} {waiter : Waiter} {language : String}
    {registration : UInt64}
    (hcurrent : (waiter.poll providers).2.isCurrent language registration = true) :
    providers.isCurrent language registration = true := by
  rcases poll_snd waiter providers with heq | ⟨l, r, promise, answer, -, heq⟩
  · rwa [heq] at hcurrent
  · exact isCurrent_of_settle (heq ▸ hcurrent)

/-- A registration that stands stood before, or has the number that is given out just now. -/
theorem isCurrent_step {session : Session P} {step : Step P} {language : String}
    {registration : UInt64}
    (hcurrent : (session.step step).providers.isCurrent language registration = true) :
    session.providers.isCurrent language registration = true ∨
      ∃ l promise, step = .defer l promise ∧
        registration = session.providers.nextRegistration := by
  cases step with
  | register l provider =>
      refine Or.inl (isCurrent_of_entries (fun promise hentry => ?_) hcurrent)
      simp only [Session.step, Providers.register, Std.TreeMap.getElem?_insert] at hentry
      split at hentry
      · cases hentry
      · exact hentry
  | defer l made =>
      obtain ⟨promise, hentry⟩ := isCurrent_iff.mp hcurrent
      simp only [Session.step, Providers.defer, Std.TreeMap.getElem?_insert] at hentry
      split at hentry
      · cases hentry
        exact Or.inr ⟨l, made, rfl, rfl⟩
      · exact Or.inl (isCurrent_iff.mpr ⟨promise, hentry⟩)
  | unregister l =>
      refine Or.inl (isCurrent_of_entries (fun promise hentry => ?_) hcurrent)
      simp only [Session.step, Providers.unregister, Std.TreeMap.getElem?_erase] at hentry
      split at hentry
      · cases hentry
      · exact hentry
  | look l =>
      left
      simp only [Session.step] at hcurrent
      rcases lookup_snd session.providers l with heq | ⟨r, promise, answer, -, -, heq⟩
      · rwa [heq] at hcurrent
      · exact isCurrent_of_settle (heq ▸ hcurrent)
  | wait l => exact Or.inl hcurrent
  | resolve promise answer => exact Or.inl hcurrent
  | poll n =>
      left
      simp only [Session.step] at hcurrent
      split at hcurrent
      · exact isCurrent_of_poll hcurrent
      · exact hcurrent

/-- A registration that was made and is gone never comes back. -/
theorem isCurrent_append {h : History P} {language : String} {registration : UInt64}
    (hmade : registration.toNat < deferrals h)
    (hgone : ¬ (run h).providers.isCurrent language registration = true) {later : History P}
    (hroom : deferrals (later ++ h) ≤ UInt64.size) :
    ¬ (run (later ++ h)).providers.isCurrent language registration = true := by
  induction later with
  | nil => exact hgone
  | cons step later ih =>
      have hbefore := Nat.le_trans (deferrals_cons_le step (later ++ h)) hroom
      intro hcurrent
      rcases isCurrent_step hcurrent with hstood | ⟨l, promise, rfl, hnext⟩
      · exact ih hbefore hstood
      · -- a number that was given out before is not given out again
        exact ne_ofNat_of_toNat_lt (Nat.lt_of_lt_of_le hmade (deferrals_le_append later h)) hroom
          (hnext.trans (run_counts _).next)

/-! ### The main result -/

theorem FirstPolled.append {h : History P} {number : Nat} {language : String}
    {entry : Option (ProviderEntry P)} (hw : FirstPolled number language entry h)
    (later : History P) : FirstPolled number language entry (later ++ h) := by
  obtain ⟨before, between, rfl, hb⟩ := hw
  exact ⟨before, later ++ between, (List.append_assoc later between _).symm, hb⟩

/-- A bound waiter that is done has the outcome of its promise's answer. -/
theorem FirstPolled.outcome_of_done {h : History P} {number : Nat} {language : String}
    {registration : UInt64} {promise : Promise} {result : Except Fault P}
    (hw : FirstPolled number language (some (.deferred registration promise)) h)
    (hdone : (run h).waiters[number]? = some (.done result)) :
    ∃ answer, resolution promise h = some answer ∧ result = Waiter.outcome language answer := by
  have hshown := hw.of_deferred
  rw [hdone] at hshown
  cases hseen : seen number promise h with
  | none => rw [hseen] at hshown; cases hshown
  | some answer =>
      rw [hseen] at hshown
      cases hshown
      exact ⟨answer, resolution_of_seen hseen, rfl⟩

/-- A bound waiter that is polled when its registration is gone leaves the registry as it is. -/
theorem FirstPolled.providers_poll {h : History P} {number : Nat} {language : String}
    {registration : UInt64} {promise : Promise}
    (hw : FirstPolled number language (some (.deferred registration promise)) h)
    (hgone : ¬ (run h).providers.isCurrent language registration = true) :
    (run (.poll number :: h)).providers = (run h).providers := by
  have hshown := hw.of_deferred
  cases hseen : seen number promise h with
  | none =>
      rw [hseen] at hshown
      rw [run, Session.step_poll_pending hshown]
      exact pollBound_snd_of_not_current hgone promise
  | some answer =>
      rw [hseen] at hshown
      rw [run, Session.step_poll_done hshown]

/-- What waiters make of a history. -/
structure WaitersAgree (h : History P) : Prop where
  /-- A waiter is fresh until it is polled, and then it was polled for a first time. -/
  polled : ∀ number progress, (run h).waiters[number]? = some progress →
    (∃ language, progress = .pending (.fresh language)) ∨
      ∃ language entry, FirstPolled number language entry h
  /-- Who finds nothing fails at once. -/
  absent : ∀ number language, FirstPolled number language none h →
    (run h).waiters[number]? = some (.done (.error (.noTokenizer language)))
  /-- Who finds a provider has it at once. -/
  ready : ∀ number language provider, FirstPolled number language (some (.ready provider)) h →
    (run h).waiters[number]? = some (.done (.ok provider))
  /-- Who finds a deferred registration is pending up to its first poll behind the answer of the
  promise, and then has the outcome of that answer. -/
  deferred : ∀ number language registration promise,
    FirstPolled number language (some (.deferred registration promise)) h →
      (run h).waiters[number]? =
        some (awaiting language registration promise (seen number promise h))
  /-- As long as no number was given out twice, all who are bound to one registration wait for one
  promise and get the same. -/
  same : deferrals h ≤ UInt64.size →
    ∀ number₁ number₂ language₁ language₂ registration promise₁ promise₂,
    FirstPolled number₁ language₁ (some (.deferred registration promise₁)) h →
    FirstPolled number₂ language₂ (some (.deferred registration promise₂)) h →
      language₁ = language₂ ∧ promise₁ = promise₂ ∧ ∀ result₁ result₂,
        (run h).waiters[number₁]? = some (.done result₁) →
        (run h).waiters[number₂]? = some (.done result₂) → result₁ = result₂
  /-- Once the entry of a registration is gone, those who were bound to it leave the registry as it
  is, at whatever later poll, as long as no number is given out twice up to then. -/
  untouched : ∀ number language registration promise,
    FirstPolled number language (some (.deferred registration promise)) h →
    (run h).providers.entries[language]? ≠ some (.deferred registration promise) →
      ∀ later, deferrals (later ++ h) ≤ UInt64.size →
        (run (.poll number :: (later ++ h))).providers = (run (later ++ h)).providers

/-- **Waiters keep to the entry they found**, after every history. -/
theorem waiters_agree (h : History P) : WaitersAgree h where
  polled _ _ hw := fresh_or_firstPolled hw
  absent _ _ hw := hw.of_absent
  ready _ _ _ hw := hw.of_ready
  deferred _ _ _ _ hw := hw.of_deferred
  same hroom number₁ number₂ language₁ language₂ registration promise₁ promise₂ hw₁ hw₂ := by
    cases (hw₁.madeFor_eq hroom).symm.trans (hw₂.madeFor_eq hroom)
    refine ⟨rfl, rfl, fun result₁ result₂ hdone₁ hdone₂ => ?_⟩
    obtain ⟨answer₁, hr₁, rfl⟩ := hw₁.outcome_of_done hdone₁
    obtain ⟨answer₂, hr₂, rfl⟩ := hw₂.outcome_of_done hdone₂
    rw [Option.some.inj (hr₁.symm.trans hr₂)]
  untouched number language registration promise hw hgone later hlater := by
    have hroom : deferrals h ≤ UInt64.size := Nat.le_trans (deferrals_le_append later h) hlater
    have hmade := hw.madeFor_eq hroom
    have hnot : ¬ (run h).providers.isCurrent language registration = true :=
      fun hcurrent => hgone (((run_follows h hroom).tracks.isCurrent_iff hroom hmade).mp hcurrent)
    exact (hw.append later).providers_poll (isCurrent_append (madeFor_lt hmade) hnot hlater)

/-- Two waiters of one registration that is unregistered before its promise is answered: one
completes before and one behind a new registration, both with the old provider, and the new one
stays. -/
theorem waiters_agree_replaced :
    let bound : History Nat :=
      [.unregister "rust", .poll 1, .poll 0, .wait "rust", .wait "rust", .defer "rust" ⟨5⟩]
    let later : History Nat :=
      [.register "rust" 9, .poll 0, .resolve ⟨5⟩ (some 7)]
    deferrals (later ++ bound) ≤ UInt64.size ∧
      FirstPolled 0 "rust" (some (.deferred 0 ⟨5⟩)) bound ∧
      FirstPolled 1 "rust" (some (.deferred 0 ⟨5⟩)) bound ∧
      (run (.poll 1 :: (later ++ bound))).waiters[0]? = some (.done (.ok 7)) ∧
      (run (.poll 1 :: (later ++ bound))).waiters[1]? = some (.done (.ok 7)) ∧
      (run (.poll 1 :: (later ++ bound))).providers = (run (later ++ bound)).providers := by
  intro bound later
  have hlater : deferrals (later ++ bound) ≤ UInt64.size := by decide
  have hw₀ : FirstPolled 0 "rust" (some (.deferred 0 ⟨5⟩)) bound :=
    ⟨[.wait "rust", .wait "rust", .defer "rust" ⟨5⟩], [.unregister "rust", .poll 1], rfl, rfl, rfl⟩
  have hw₁ : FirstPolled 1 "rust" (some (.deferred 0 ⟨5⟩)) bound :=
    ⟨[.poll 0, .wait "rust", .wait "rust", .defer "rust" ⟨5⟩], [.unregister "rust"], rfl, rfl, by
      simp [run, Session.step, Providers.defer, Waiter.poll, Waiter.pollBound]⟩
  have hgone : (run bound).providers.entries["rust"]? ≠ some (.deferred 0 ⟨5⟩) := by
    simp [bound, run, Session.step, Providers.unregister]
  refine ⟨hlater, hw₀, hw₁, ?_, ?_, ?_⟩
  · exact (waiters_agree _).deferred 0 "rust" 0 ⟨5⟩ (hw₀.append (.poll 1 :: later))
  · exact (waiters_agree _).deferred 1 "rust" 0 ⟨5⟩ (hw₁.append (.poll 1 :: later))
  · exact (waiters_agree bound).untouched 1 "rust" 0 ⟨5⟩ hw₁ hgone later hlater

end Highlight.Providers
