import Highlight.Proofs.Html.Lines
import Highlight.Proofs.Provider.Waiting
import Mathlib.Data.List.DropRight

/-!
# Renderings that wait for their tokenizer

A rendering is polled while others register and unregister providers, answer promises of them, look
languages up and wait for them, and while somebody may cancel its token. A history lists all of
that, newest first.

What a poll does is read off three things: the entry that the first poll found (`found`), the answer
of that entry's promise if it was a deferred one, and whether the token has been cancelled. The
answer goes first. So a rendering that is given up while it waits has found its registration without
an answer, and has not settled anything; and a provider that came in time is installed even if the
token was cancelled as well, in which case the loop over lines gives up in front of the first line.

The invariant is `Pending`. It says where a rendering stands that is not done: its waiter is fresh
up to the first poll, and bound to the registration that the first poll found from then on.
-/

namespace Highlight

variable {V S : Type}

/-! ### Scenes and their histories -/

/-- What a tokenizer may act on: the token of the rendering, and anything else. -/
structure Surroundings (V : Type) where
  token : CancellationToken := {}
  world : V

/-- Whether the token is cancelled, which is what polls and the loop over lines ask. -/
def Surroundings.isCancelled (surroundings : Surroundings V) : Bool :=
  surroundings.token.isCancelled

/-- Something that happens to a rendering or to the registry it uses. -/
inductive SceneEvent (V S : Type) where
  /-- Others do something with the registry, or with a waiter of theirs. -/
  | registry (step : Providers.Step (Tokenizer (Surroundings V) S))
  /-- The token is cancelled. -/
  | cancel
  /-- The rendering is polled. -/
  | poll

def SceneEvent.isPoll : SceneEvent V S → Bool
  | poll => true
  | _ => false

/-- Events, newest first. -/
abbrev SceneHistory (V S : Type) := List (SceneEvent V S)

/-- What was done with the registry, polls of the rendering aside. -/
def registrySteps (h : SceneHistory V S) :
    Providers.History (Tokenizer (Surroundings V) S) :=
  h.filterMap fun
    | .registry step => some step
    | _ => none

/-- What happened before the first poll, or so far if there was none. -/
def beforePolls (h : SceneHistory V S) : SceneHistory V S :=
  h.rtakeWhile fun event => !event.isPoll

/-- A rendering together with the registry it uses and the others who use it. -/
structure Scene (V S : Type) where
  session : Providers.Session (Tokenizer (Surroundings V) S) := {}
  surroundings : Surroundings V
  job : Progress (Except Fault String) RenderJob

/-- What is rendered, and with what. -/
structure Setting (V S : Type) where
  highlighter : Highlighter (Surroundings V) S
  request : RenderRequest
  world : V

namespace Setting

/-- One event. A rendering that is done is not polled any more. -/
def step (setting : Setting V S) (scene : Scene V S) : SceneEvent V S → Scene V S
  | .registry step => { scene with session := scene.session.step step }
  | .cancel =>
      { scene with
        surroundings := { scene.surroundings with token := scene.surroundings.token.cancel } }
  | .poll =>
      match scene.job with
      | .done _ => scene
      | .pending job =>
          let (job, (providers, surroundings)) :=
            (setting.highlighter.poll Surroundings.isCancelled job).run
              (scene.session.providers, scene.surroundings)
          { session := { scene.session with providers }, surroundings, job }

/-- The scene after a history that begins with an empty registry and before the first poll. -/
def run (setting : Setting V S) : SceneHistory V S → Scene V S
  | [] => { surroundings := { world := setting.world }, job := .pending setting.request.start }
  | event :: earlier => setting.step (setting.run earlier) event

/-- What is registered for the language. -/
def entry (setting : Setting V S) (h : SceneHistory V S) :
    Option (ProviderEntry (Tokenizer (Surroundings V) S)) :=
  (setting.run h).session.providers.entries[setting.request.language]?

/-- What was registered for the language at the first poll; what is registered now if that poll is
still to come. -/
def found (setting : Setting V S) (h : SceneHistory V S) :
    Option (ProviderEntry (Tokenizer (Surroundings V) S)) :=
  setting.entry (beforePolls h)

/-- Only polls move the rendering. -/
theorem job_cons {setting : Setting V S} {event : SceneEvent V S} (hevent : .poll ≠ event)
    (h : SceneHistory V S) : (setting.run (event :: h)).job = (setting.run h).job := by
  cases event with
  | poll => exact absurd rfl hevent
  | _ => rfl

end Setting

theorem beforePolls_of_not_mem {h : SceneHistory V S} (hfresh : .poll ∉ h) :
    beforePolls h = h := by
  refine List.rtakeWhile_eq_self_iff.mpr fun event hevent => ?_
  cases event with
  | poll => exact absurd hevent hfresh
  | _ => rfl

/-- Behind the first poll, nothing changes what happened before it. -/
theorem beforePolls_cons {h : SceneHistory V S} (hpolled : .poll ∈ h) (event : SceneEvent V S) :
    beforePolls (event :: h) = beforePolls h := by
  have hstops : (h.reverse.takeWhile fun event => !event.isPoll).length ≠ h.reverse.length := by
    intro hlength
    have hall := List.takeWhile_eq_self_iff.mp
      ((List.takeWhile_prefix _).eq_of_length hlength)
    have hpoll := hall .poll (List.mem_reverse.mpr hpolled)
    cases hpoll
  rw [beforePolls, List.rtakeWhile, List.reverse_cons, List.takeWhile_append, if_neg hstops]
  rfl

/-- Neither does the first poll itself. -/
theorem beforePolls_poll (h : SceneHistory V S) : beforePolls (.poll :: h) = beforePolls h := by
  by_cases hpolled : .poll ∈ h
  · exact beforePolls_cons hpolled .poll
  · have hall : ∀ event ∈ h.reverse, (!event.isPoll) = true := by
      intro event hevent
      cases event with
      | poll => exact absurd (List.mem_reverse.mp hevent) hpolled
      | _ => rfl
    rw [beforePolls_of_not_mem hpolled, beforePolls, List.rtakeWhile, List.reverse_cons,
      List.takeWhile_append_of_pos hall]
    simp [SceneEvent.isPoll]

/-- A history in which the first poll is still to come finds what is there now. -/
theorem Setting.found_of_not_mem (setting : Setting V S) {h : SceneHistory V S}
    (hfresh : .poll ∉ h) : setting.found h = setting.entry h :=
  congrArg setting.entry (beforePolls_of_not_mem hfresh)

/-! ### What becomes of a scene -/

namespace Scene

/-- The scene once the rendering has failed. -/
def failed (fault : Fault) (scene : Scene V S) : Scene V S :=
  { scene with job := .done (.error fault) }

/-- The scene once the text has been rendered with a tokenizer, as far as that goes. -/
def renderedWith (setting : Setting V S) (tokenizer : Tokenizer (Surroundings V) S)
    (scene : Scene V S) : Scene V S :=
  let rendered := (Html.renderText setting.highlighter.theme setting.request.options
    Surroundings.isCancelled tokenizer setting.request.text).run scene.surroundings
  { scene with surroundings := rendered.2, job := .done rendered.1 }

/-- The scene once there is no provider: the rendering has failed, or the text is rendered as plain
text. -/
def withoutProvider (setting : Setting V S) (scene : Scene V S) : Scene V S :=
  if setting.request.options.plainFallback then
    scene.renderedWith setting setting.highlighter.plain
  else scene.failed (.noTokenizer setting.request.language)

/-- The scene once the wait for the provider has come to an end, with one or with none. -/
def withAnswer (setting : Setting V S) (scene : Scene V S) :
    Option (Tokenizer (Surroundings V) S) → Scene V S
  | some tokenizer => scene.renderedWith setting tokenizer
  | none => scene.withoutProvider setting

/-- The scene once the answer of a registration has been entered, if its entry is still there. -/
def settled (language : String) (registration : UInt64)
    (answer : Option (Tokenizer (Surroundings V) S)) (scene : Scene V S) : Scene V S :=
  { scene with
    session := { scene.session with
      providers := scene.session.providers.settle language registration answer } }

end Scene

namespace Setting

variable {setting : Setting V S} {h : SceneHistory V S} {job : RenderJob}

/-! ### Renderings that are done -/

/-- A poll that ends the wait renders the text with what was found. -/
theorem run_poll_of_done {answer : Option (Tokenizer (Surroundings V) S)}
    {settled : Providers (Tokenizer (Surroundings V) S)}
    (hjob : (setting.run h).job = .pending job) (hrequest : job.request = setting.request)
    (hpoll : job.waiter.poll (setting.run h).session.providers =
      (.done (Waiter.outcome setting.request.language answer), settled)) :
    setting.run (.poll :: h) =
      { setting.run h with
        session := { (setting.run h).session with providers := settled } }.withAnswer setting
          answer := by
  rw [run, step, hjob]
  simp only [Highlighter.run_poll_of_done hpoll, hrequest]
  cases answer with
  | some tokenizer => rfl
  | none =>
      simp only [Waiter.outcome, Highlighter.render_noTokenizer, Scene.withAnswer,
        Scene.withoutProvider]
      split
      · rfl
      · rfl

/-- A poll that does not end the wait changes nothing but the rendering itself. -/
theorem run_poll_of_pending {waiter : Waiter}
    (hjob : (setting.run h).job = .pending job)
    (hpoll : job.waiter.poll (setting.run h).session.providers =
      (.pending waiter, (setting.run h).session.providers)) :
    setting.run (.poll :: h) =
      if (setting.run h).surroundings.isCancelled then (setting.run h).failed .cancelled
      else { setting.run h with job := .pending { job with waiter } } := by
  rw [run, step, hjob]
  simp only [Highlighter.run_poll_of_pending hpoll]
  split
  · rfl
  · rfl

/-! ### The invariant -/

/-- A poll of a rendering polls its waiter, and leaves the others alone. -/
theorem run_poll_of_job (hjob : (setting.run h).job = .pending job) :
    (setting.run (.poll :: h)).session =
        { (setting.run h).session with
          providers := (job.waiter.poll (setting.run h).session.providers).2 } ∧
      ∀ next, (setting.run (.poll :: h)).job = .pending next →
        (job.waiter.poll (setting.run h).session.providers).1 = .pending next.waiter := by
  rw [run, step, hjob]
  cases hpoll : job.waiter.poll (setting.run h).session.providers with
  | mk progress settled =>
      cases progress with
      | done found =>
          simp only [Highlighter.run_poll_of_done hpoll]
          exact ⟨trivial, nofun⟩
      | pending waiter =>
          simp only [Highlighter.run_poll_of_pending hpoll]
          refine ⟨trivial, fun next hnext => ?_⟩
          split at hnext
          · cases hnext
          · cases hnext
            rfl

/-- Whatever renderings do, the answers are those that were given. -/
theorem run_counts (setting : Setting V S) (h : SceneHistory V S) :
    Providers.Counts (registrySteps h) (setting.run h).session.providers := by
  induction h with
  | nil => exact .nil
  | cons event h ih =>
      cases event with
      | registry step => exact ih.step step
      | cancel => exact ih
      | poll =>
          cases hjob : (setting.run h).job with
          | done result =>
              rw [run, step, hjob]
              exact ih
          | pending job =>
              rw [(run_poll_of_job hjob).1]
              exact ih.poll job.waiter

/-- Where a rendering stands that is not done. -/
structure Pending (setting : Setting V S) (h : SceneHistory V S) (job : RenderJob) : Prop where
  request : job.request = setting.request
  cancelled : (setting.run h).surroundings.isCancelled = true ↔ .cancel ∈ h
  /-- Before the first poll the language has not been looked up. -/
  fresh : .poll ∉ h → job.waiter = .fresh setting.request.language
  /-- From the first poll on, the rendering is bound to what that poll found. -/
  bound : .poll ∈ h → ∃ registration promise,
    setting.found h = some (.deferred registration promise) ∧
      job.waiter = .bound setting.request.language registration promise

/-- Other events leave the rendering where it stands. -/
theorem Pending.cons {event : SceneEvent V S} (hp : setting.Pending h job)
    (hevent : .poll ≠ event)
    (hcancelled : (setting.run (event :: h)).surroundings.isCancelled = true ↔
      .cancel ∈ event :: h) :
    setting.Pending (event :: h) job where
  request := hp.request
  cancelled := hcancelled
  fresh hfresh := hp.fresh fun hpolled => hfresh (List.mem_cons_of_mem event hpolled)
  bound hpolled := by
    have hpolled : .poll ∈ h := (List.mem_cons.mp hpolled).resolve_left hevent
    obtain ⟨registration, promise, hfound, hbound⟩ := hp.bound hpolled
    exact ⟨registration, promise,
      (congrArg setting.entry (beforePolls_cons hpolled event)).trans hfound, hbound⟩

/-- A rendering whose first poll finds a deferred registration asks for the answer of its promise at
that poll and at all later ones. -/
theorem Pending.poll_of_deferred (hp : setting.Pending h job) {registration : UInt64}
    {promise : Promise} (hfound : setting.found h = some (.deferred registration promise)) :
    job.waiter.poll (setting.run h).session.providers =
      Waiter.pollBound setting.request.language registration promise
        (setting.run h).session.providers := by
  by_cases hpolled : .poll ∈ h
  · obtain ⟨r, p, hbound, hwaiter⟩ := hp.bound hpolled
    rw [hfound] at hbound
    cases hbound
    rw [hwaiter]
    rfl
  · rw [setting.found_of_not_mem hpolled, entry] at hfound
    rw [hp.fresh hpolled]
    simp only [Waiter.poll, hfound]

/-- Before its first poll a rendering is as it was made. -/
theorem job_of_fresh (hfresh : .poll ∉ h) :
    (setting.run h).job = .pending setting.request.start := by
  induction h with
  | nil => rfl
  | cons event h ih =>
      rw [job_cons (List.ne_of_not_mem_cons hfresh)]
      exact ih (List.not_mem_of_not_mem_cons hfresh)

/-- A first poll that finds a provider, or finds that there is none, goes on with that, whether or
not the token is cancelled. -/
theorem run_poll_of_entry (answer : Option (Tokenizer (Surroundings V) S)) (hfresh : .poll ∉ h)
    (hentry : setting.entry h = answer.map .ready) :
    setting.run (.poll :: h) = (setting.run h).withAnswer setting answer := by
  have hpoll : setting.request.start.waiter.poll (setting.run h).session.providers =
      (.done (Waiter.outcome setting.request.language answer),
        (setting.run h).session.providers) := by
    rw [entry] at hentry
    cases answer with
    | some tokenizer =>
        simp only [RenderRequest.start, Waiter.poll, hentry, Option.map_some, Waiter.outcome]
    | none => simp only [RenderRequest.start, Waiter.poll, hentry, Option.map_none, Waiter.outcome]
  exact run_poll_of_done (job_of_fresh hfresh) rfl hpoll

/-- A poll behind the answer of the promise enters the answer and goes on with it. -/
theorem run_poll_of_answered {registration : UInt64} {promise : Promise}
    {answer : Option (Tokenizer (Surroundings V) S)} (hp : setting.Pending h job)
    (hjob : (setting.run h).job = .pending job)
    (hfound : setting.found h = some (.deferred registration promise))
    (hanswer : Providers.resolution promise (registrySteps h) = some answer) :
    setting.run (.poll :: h) =
      ((setting.run h).settled setting.request.language registration answer).withAnswer setting
        answer := by
  have hpoll := hp.poll_of_deferred hfound
  rw [← (setting.run_counts h).answers] at hanswer
  simp only [Waiter.pollBound, hanswer] at hpoll
  exact run_poll_of_done hjob hp.request hpoll

/-- A poll before the answer of the promise changes nothing but the rendering itself. -/
theorem run_poll_of_unanswered {registration : UInt64} {promise : Promise}
    (hp : setting.Pending h job) (hjob : (setting.run h).job = .pending job)
    (hfound : setting.found h = some (.deferred registration promise))
    (hanswer : Providers.resolution promise (registrySteps h) = none) :
    setting.run (.poll :: h) =
      if (setting.run h).surroundings.isCancelled then (setting.run h).failed .cancelled
      else { setting.run h with
        job := .pending
          { job with waiter := .bound setting.request.language registration promise } } := by
  have hpoll := hp.poll_of_deferred hfound
  rw [← (setting.run_counts h).answers] at hanswer
  simp only [Waiter.pollBound, hanswer] at hpoll
  exact run_poll_of_pending hjob hpoll

theorem job_withAnswer_ne (scene : Scene V S)
    (answer : Option (Tokenizer (Surroundings V) S)) (job : RenderJob) :
    (scene.withAnswer setting answer).job ≠ .pending job := by
  intro hjob
  cases answer with
  | some tokenizer => cases hjob
  | none =>
      rw [Scene.withAnswer, Scene.withoutProvider] at hjob
      split at hjob
      · cases hjob
      · cases hjob

/-- A rendering that is still pending behind a poll has found a deferred registration. -/
theorem Pending.exists_deferred {next : RenderJob} (hp : setting.Pending h job)
    (hnext : (setting.run (.poll :: h)).job = .pending next) :
    ∃ registration promise, setting.found h = some (.deferred registration promise) := by
  by_cases hpolled : .poll ∈ h
  · obtain ⟨registration, promise, hfound, -⟩ := hp.bound hpolled
    exact ⟨registration, promise, hfound⟩
  · -- anything else would have ended the wait at this poll, the first one
    rw [setting.found_of_not_mem hpolled]
    cases hentry : setting.entry h with
    | none =>
        rw [run_poll_of_entry none hpolled hentry] at hnext
        exact absurd hnext (job_withAnswer_ne _ none next)
    | some entry =>
        cases entry with
        | ready tokenizer =>
            rw [run_poll_of_entry (some tokenizer) hpolled hentry] at hnext
            exact absurd hnext (job_withAnswer_ne _ (some tokenizer) next)
        | deferred registration promise => exact ⟨registration, promise, rfl⟩

/-- A poll that leaves the rendering pending has bound it to the registration that was found. -/
theorem Pending.poll {next : RenderJob} (hp : setting.Pending h job)
    (hjob : (setting.run h).job = .pending job)
    (hnext : (setting.run (.poll :: h)).job = .pending next) :
    setting.Pending (.poll :: h) next := by
  obtain ⟨registration, promise, hfound⟩ := hp.exists_deferred hnext
  cases hanswer : Providers.resolution promise (registrySteps h) with
  | some answer =>
      rw [run_poll_of_answered hp hjob hfound hanswer] at hnext
      exact absurd hnext (job_withAnswer_ne _ answer next)
  | none =>
      have hrun := run_poll_of_unanswered hp hjob hfound hanswer
      split at hrun
      · rw [hrun] at hnext
        cases hnext
      · have hbound := hnext
        rw [hrun] at hbound
        obtain rfl := Progress.pending.inj hbound
        refine ⟨hp.request, ?_, fun hfresh => absurd List.mem_cons_self hfresh,
          fun _ => ⟨registration, promise, ?_, rfl⟩⟩
        · rw [hrun]
          exact hp.cancelled.trans (by simp)
        · exact (congrArg setting.entry (beforePolls_poll h)).trans hfound

/-- As long as no number is given out twice, the session is as its steps ask for, and the rendering
is bound to a registration that was made, like any other waiter. -/
structure Follows (setting : Setting V S) (h : SceneHistory V S) : Prop where
  session : Providers.Follows (registrySteps h) (setting.run h).session
  waiter : ∀ job, (setting.run h).job = .pending job →
    Providers.KnownTo (registrySteps h) job.waiter

theorem run_follows (setting : Setting V S) (h : SceneHistory V S)
    (hroom : Providers.deferrals (registrySteps h) ≤ UInt64.size) : setting.Follows h := by
  induction h with
  | nil =>
      refine ⟨.nil, fun job hjob => ?_⟩
      cases hjob
      trivial
  | cons event h ih =>
      cases event with
      | registry step =>
          have hf := ih (Nat.le_trans (Providers.deferrals_cons_le step _) hroom)
          exact ⟨hf.session.step step hroom, fun job hjob => (hf.waiter job hjob).cons hroom⟩
      | cancel =>
          have hf := ih hroom
          exact ⟨hf.session, hf.waiter⟩
      | poll =>
          have hf := ih hroom
          cases hjob : (setting.run h).job with
          | done result =>
              have hstays : setting.run (.poll :: h) = setting.run h := by rw [run, step, hjob]
              refine ⟨hstays ▸ hf.session, fun job hnext => ?_⟩
              rw [hstays] at hnext
              exact hf.waiter job hnext
          | pending job =>
              have hknown := hf.waiter job hjob
              obtain ⟨hsession, hwaiter⟩ := run_poll_of_job hjob
              refine ⟨?_, fun next hnext => ?_⟩
              · rw [hsession]
                exact ⟨hf.session.tracks.poll hroom hknown, hf.session.known⟩
              · exact hf.session.tracks.knownTo_of_poll hroom hknown (hwaiter next hnext)

end Setting

/-! ### The main result -/

end Highlight
