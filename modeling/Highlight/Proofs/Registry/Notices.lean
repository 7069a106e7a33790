import Highlight.Proofs.Registry.Subscriptions

/-!
# Listeners hear of every change exactly once

To tell what listeners hear, they are observed (`WatchedRegistry.noting`): each of their calls is
noted down, with the colors that the registry holds at that moment. As long as listeners leave the
registry alone (`WatchedRegistry.Passive`), a call does what `WatchedCall.after` says and is heard
as `WatchedCall.notices` says, whether anybody observes or not (`WatchedCall.run_make`).

So the notices of a sequence of calls are told by the calls, and they can be sorted by the number
that they go under. A number hears of nothing before it is given, because whoever listens does so
under a number that was given (`WatchedCall.Numbered`). From then on it hears of every change until
it is given up (`WatchedCall.filter_allNotices`), if there are numbers left for all subscriptions:
with more of them than 2^64, two listeners may share a number, and are given up together.
-/

namespace Highlight

/-! ### Announcements -/

/-- The change that a call announces. -/
def RegistryCall.announced : RegistryCall → RegistryChange
  | register contribution => .registered contribution.id
  | deregister id => .deregistered id

/-- The changes that calls announce, beginning with some colors, each with the colors that it
leaves. -/
def RegistryCall.announcements (colors : ColorRegistry) :
    List RegistryCall → List (RegistryChange × ColorRegistry)
  | [] => []
  | call :: rest =>
      (call.announced, call.perform colors) :: announcements (call.perform colors) rest

/-- A call of a listener: whose it is, what it is told, and the colors that it can read. -/
structure Notice (L : Type) where
  number : UInt64
  listener : L
  change : RegistryChange
  colors : ColorRegistry

variable {L W : Type}

/-! ### Observed listeners -/

namespace WatchedRegistry

/-- Listeners that leave the registry as they find it: they do not register, remove, subscribe or
unsubscribe. -/
def Passive (react : Reaction L W) : Prop :=
  ∀ number listener change s, ((react number listener change).run s).2.1 = s.1

/-- What a listener is told of a change, and the colors that the registry holds meanwhile. -/
def noticeOf (registry : WatchedRegistry L) (change : RegistryChange)
    (subscription : UInt64 × L) : Notice L :=
  ⟨subscription.1, subscription.2, change, registry.colors⟩

/-- The same listeners, with a note of each of their calls. -/
def noting (react : Reaction L W) : Reaction L (W × List (Notice L)) :=
  fun number listener change (registry, w, notices) =>
    let (done, after, w) := (react number listener change).run (registry, w)
    (done, after, w, notices ++ [registry.noticeOf change (number, listener)])

variable {react : Reaction L W}

/-- A call of a passive listener changes its surroundings at most, observed or not. -/
theorem Passive.run_react (hpassive : Passive react) (subscription : UInt64 × L)
    (change : RegistryChange) (registry : WatchedRegistry L) (w : W) :
    ∃ w', (react subscription.1 subscription.2 change).run (registry, w) = ((), registry, w') ∧
      ∀ notices, (noting react subscription.1 subscription.2 change).run (registry, w, notices) =
        ((), registry, w', notices ++ [registry.noticeOf change subscription]) := by
  obtain ⟨number, listener⟩ := subscription
  have hplain : (react number listener change).run (registry, w) =
      ((), registry, ((react number listener change).run (registry, w)).2.2) :=
    Prod.ext rfl (Prod.ext (hpassive number listener change (registry, w)) rfl)
  refine ⟨_, hplain, fun notices => ?_⟩
  show (let (done, after, w) := (react number listener change).run (registry, w)
    (done, after, w, notices ++ [registry.noticeOf change (number, listener)])) = _
  rw [hplain]

theorem run_forM_cons {σ α : Type} (f : α → StateM σ Unit) (a : α) (rest : List α) (s : σ) :
    ((a :: rest).forM f).run s = (rest.forM f).run ((f a).run s).2 := rfl

/-- Passive listeners that are called one after the other all find the registry as it was. -/
theorem Passive.run_forM (hpassive : Passive react) (listeners : List (UInt64 × L))
    (change : RegistryChange) (registry : WatchedRegistry L) (w : W) :
    ∃ w', (listeners.forM fun subscription =>
          react subscription.1 subscription.2 change).run (registry, w) = ((), registry, w') ∧
      ∀ notices, (listeners.forM fun subscription =>
          noting react subscription.1 subscription.2 change).run (registry, w, notices) =
        ((), registry, w', notices ++ listeners.map (registry.noticeOf change)) := by
  induction listeners generalizing w with
  | nil => exact ⟨w, rfl, fun notices => by rw [List.map_nil, List.append_nil]; rfl⟩
  | cons first rest ih =>
      obtain ⟨w₁, hplain, hnoted⟩ := hpassive.run_react first change registry w
      obtain ⟨w', hrest, hrestnoted⟩ := ih w₁
      refine ⟨w', ?_, fun notices => ?_⟩
      · rw [run_forM_cons, hplain, hrest]
      · rw [run_forM_cons, hnoted, hrestnoted, List.append_assoc]
        rfl

end WatchedRegistry

/-! ### What a call does -/

namespace WatchedCall

open WatchedRegistry

/-- Makes a call. -/
def make (react : Reaction L W) : WatchedCall L → StateM (WatchedRegistry L × W) WatchedAnswer
  | change call => do
      call.run react
      return .changed
  | subscribe listener => modifyGet fun (registry, w) =>
      let (number, registry) := registry.subscribe listener
      (.subscribed number, registry, w)
  | unsubscribe number => modifyGet fun (registry, w) =>
      let (removed, registry) := registry.unsubscribe number
      (.unsubscribed removed, registry, w)

/-- The notices of a call: one for each listener, if it is a change. -/
def notices (registry : WatchedRegistry L) : WatchedCall L → List (Notice L)
  | change call =>
      registry.listeners.map ((after registry (.change call)).noticeOf call.announced)
  | subscribe _ | unsubscribe _ => []

/-- A call is heard as it is announced, by everybody who listens. -/
theorem notices_eq (registry : WatchedRegistry L) (call : WatchedCall L) :
    call.notices registry =
      (RegistryCall.announcements registry.colors (changes [call])).flatMap fun announced =>
        registry.listeners.map fun subscription =>
          ⟨subscription.1, subscription.2, announced.1, announced.2⟩ := by
  cases call with
  | change call => exact (List.append_nil _).symm
  | subscribe listener => rfl
  | unsubscribe number => rfl

variable {react : Reaction L W}

/-- A change reaches the colors before it reaches the listeners. -/
theorem run_make_change (react : Reaction L W) (call : RegistryCall) (registry : WatchedRegistry L)
    (w : W) :
    (make react (.change call)).run (registry, w) =
      (.changed, ((registry.listeners.forM fun subscription =>
        react subscription.1 subscription.2 call.announced).run
          (after registry (.change call), w)).2) := by
  cases call <;> rfl

/-- **What a call does** while all listeners are passive, observed or not. -/
theorem run_make (hpassive : Passive react) (call : WatchedCall L) (registry : WatchedRegistry L)
    (w : W) :
    ∃ w', (call.make react).run (registry, w) = (call.answer registry, call.after registry, w') ∧
      ∀ earlier, (call.make (noting react)).run (registry, w, earlier) =
        (call.answer registry, call.after registry, w', earlier ++ call.notices registry) := by
  cases call with
  | change call =>
      obtain ⟨w', hplain, hnoted⟩ := hpassive.run_forM registry.listeners call.announced
        (after registry (.change call)) w
      refine ⟨w', ?_, fun earlier => ?_⟩
      · rw [run_make_change, hplain]
        rfl
      · rw [run_make_change, hnoted]
        rfl
  | subscribe listener =>
      exact ⟨w, rfl, fun earlier => by rw [notices, List.append_nil]; rfl⟩
  | unsubscribe number =>
      exact ⟨w, rfl, fun earlier => by rw [notices, List.append_nil]; rfl⟩

/-! ### What a sequence of calls does -/

/-- The notices of calls, made in order. -/
def allNotices (registry : WatchedRegistry L) : List (WatchedCall L) → List (Notice L)
  | [] => []
  | call :: rest => call.notices registry ++ allNotices (call.after registry) rest

theorem run_mapM_cons {σ α β : Type} (f : α → StateM σ β) (a : α) (rest : List α) (s : σ) :
    ((a :: rest).mapM f).run s =
      (((f a).run s).1 :: ((rest.mapM f).run ((f a).run s).2).1,
        ((rest.mapM f).run ((f a).run s).2).2) := by
  rw [List.mapM_cons]
  rfl

/-- **What calls do**, one after the other, is told by the calls alone. -/
theorem run_mapM_make (hpassive : Passive react) (calls : List (WatchedCall L))
    (registry : WatchedRegistry L) (w : W) :
    ∃ w', (calls.mapM (make react)).run (registry, w) =
        (answers registry calls, calls.foldl after registry, w') ∧
      ∀ earlier, (calls.mapM (make (noting react))).run (registry, w, earlier) =
        (answers registry calls, calls.foldl after registry, w',
          earlier ++ allNotices registry calls) := by
  induction calls generalizing registry w with
  | nil => exact ⟨w, rfl, fun earlier => by rw [allNotices, List.append_nil]; rfl⟩
  | cons call rest ih =>
      obtain ⟨w₁, hplain, hnoted⟩ := run_make hpassive call registry w
      obtain ⟨w', hrest, hrestnoted⟩ := ih (call.after registry) w₁
      refine ⟨w', ?_, fun earlier => ?_⟩
      · rw [run_mapM_cons, hplain, hrest]
        rfl
      · rw [run_mapM_cons, hnoted, hrestnoted, List.append_assoc]
        rfl

/-! ### Whose notices they are -/

/-- The listeners of a number. -/
def listening (registry : WatchedRegistry L) (number : UInt64) : List (UInt64 × L) :=
  registry.listeners.filter (·.1 == number)

theorem listening_subscribe (registry : WatchedRegistry L) (number : UInt64) (listener : L) :
    listening (after registry (.subscribe listener)) number =
      listening registry number ++
        if registry.nextSubscription = number then [(registry.nextSubscription, listener)]
        else [] := by
  show (registry.listeners ++ [(registry.nextSubscription, listener)]).filter (·.1 == number) = _
  rw [List.filter_append, List.filter_cons, List.filter_nil]
  simp [listening]

/-- Only giving up a number that was given changes who listens under it. -/
theorem listening_after {registry : WatchedRegistry L} {number : UInt64} (call : WatchedCall L)
    (hnumber : call.subscribes = true → registry.nextSubscription ≠ number) :
    listening (call.after registry) number =
      if call.ends number then [] else listening registry number := by
  cases call with
  | change call => rfl
  | subscribe listener =>
      rw [listening_subscribe, if_neg (hnumber rfl), List.append_nil]
      rfl
  | unsubscribe given =>
      show (registry.listeners.filter (·.1 != given)).filter (·.1 == number) = _
      rw [List.filter_filter]
      by_cases hgiven : given = number
      · subst hgiven
        simp [ends]
      · rw [if_neg (by simpa [ends] using hgiven)]
        refine List.filter_congr fun subscription _ => ?_
        by_cases heq : subscription.1 = number
        · simp [heq, Ne.symm hgiven]
        · simp [heq]

/-- The notices of a change under a number. -/
theorem filter_notices_change (registry : WatchedRegistry L) (number : UInt64)
    (call : RegistryCall) :
    ((change call).notices registry).filter (·.number == number) =
      (listening registry number).map fun subscription =>
        ⟨subscription.1, subscription.2, call.announced, call.perform registry.colors⟩ := by
  rw [notices, List.filter_map]
  rfl

/-- **A number hears of the changes made until it is given up**, each with the colors it leaves. -/
theorem filter_allNotices {given : Nat} {registry : WatchedRegistry L}
    (h : Numbered given registry) {calls : List (WatchedCall L)}
    (hroom : given + subscriptions calls ≤ UInt64.size) {number : UInt64}
    (hnumber : number.toNat < given) :
    (allNotices registry calls).filter (·.number == number) =
      (RegistryCall.announcements registry.colors
          (changes (calls.takeWhile (!ends number ·)))).flatMap fun heard =>
        (listening registry number).map fun subscription =>
          ⟨subscription.1, subscription.2, heard.1, heard.2⟩ := by
  induction calls generalizing given registry with
  | nil => rfl
  | cons call rest ih =>
      have hother : call.subscribes = true → registry.nextSubscription ≠ number := by
        intro hsubscribes
        rw [h.next]
        exact (ne_ofNat_of_toNat_lt hnumber (lt_of_subscribes hroom hsubscribes)).symm
      rw [subscriptions_cons, ← Nat.add_assoc] at hroom
      have hrest := ih (h.after call) hroom (Nat.lt_add_right _ hnumber)
      rw [allNotices, List.filter_append, hrest, listening_after call hother, List.takeWhile_cons]
      cases call with
      | change call =>
          rw [filter_notices_change]
          rfl
      | subscribe listener => rfl
      | unsubscribe given =>
          cases hends : (unsubscribe given : WatchedCall L).ends number with
          | true =>
              -- nobody listens under the number any more
              rw [if_pos rfl]
              simp [notices, changes, RegistryCall.announcements]
          | false => rfl

theorem allNotices_append (calls later : List (WatchedCall L)) (registry : WatchedRegistry L) :
    allNotices registry (calls ++ later) =
      allNotices registry calls ++ allNotices (calls.foldl after registry) later := by
  induction calls generalizing registry with
  | nil => rfl
  | cons call rest ih =>
      rw [List.cons_append, allNotices, ih, ← List.append_assoc]
      rfl

variable {given : Nat} {registry : WatchedRegistry L}

theorem Numbered.lt_of_mem_notices (h : Numbered given registry) {call : WatchedCall L}
    {notice : Notice L} (hmem : notice ∈ call.notices registry) : notice.number.toNat < given := by
  cases call with
  | change call =>
      obtain ⟨subscription, hsubscription, rfl⟩ := List.mem_map.mp hmem
      exact h.below subscription hsubscription
  | subscribe listener => simp [notices] at hmem
  | unsubscribe number => simp [notices] at hmem

/-- Notices go under numbers that were given. -/
theorem Numbered.lt_of_mem_allNotices (h : Numbered given registry) {calls : List (WatchedCall L)}
    {notice : Notice L} (hmem : notice ∈ allNotices registry calls) :
    notice.number.toNat < given + subscriptions calls := by
  induction calls generalizing given registry with
  | nil => simp [allNotices] at hmem
  | cons call rest ih =>
      rcases List.mem_append.mp hmem with hcall | hrest
      · exact Nat.lt_add_right _ (h.lt_of_mem_notices hcall)
      · rw [subscriptions_cons, ← Nat.add_assoc]
        exact ih (h.after call) hrest

/-- **What a subscription hears of**: the changes made behind it and before its number is given up,
in order, each once and with the colors it leaves. -/
theorem filter_notices_subscribe {before later : List (WatchedCall L)} {listener : L}
    (hroom : subscriptions (before ++ .subscribe listener :: later) ≤ UInt64.size) :
    let registry : WatchedRegistry L := before.foldl after {}
    let number := UInt64.ofNat (subscriptions before)
    (allNotices {} (before ++ .subscribe listener :: later)).filter (·.number == number) =
      (RegistryCall.announcements registry.colors
          (changes (later.takeWhile (!ends number ·)))).map fun heard =>
        ⟨number, listener, heard.1, heard.2⟩ := by
  intro registry number
  have hbefore : Numbered (subscriptions before) registry := .foldl_after_new before
  have hbehind := hbefore.after (.subscribe listener)
  rw [subscriptions_append] at hroom
  have hleft : subscriptions before < UInt64.size := lt_of_subscribes hroom rfl
  rw [subscriptions_cons, ← Nat.add_assoc] at hroom
  have hearlier : (allNotices {} before).filter (·.number == number) = [] := by
    rw [List.filter_eq_nil_iff]
    intro notice hmem
    have hlt := Numbered.new.lt_of_mem_allNotices hmem
    rw [Nat.zero_add] at hlt
    simpa using ne_ofNat_of_toNat_lt hlt hleft
  have hnobody : listening registry number = [] := by
    rw [listening, List.filter_eq_nil_iff]
    intro subscription hmem
    simpa using ne_ofNat_of_toNat_lt (hbefore.below subscription hmem) hleft
  have hlistening : listening (after registry (.subscribe listener)) number =
      [(number, listener)] := by
    rw [listening_subscribe, hnobody, hbefore.next, if_pos rfl]
    rfl
  rw [allNotices_append, List.filter_append, hearlier, List.nil_append, allNotices, notices,
    List.nil_append, filter_allNotices hbehind hroom (toNat_ofNat_lt_succ _), hlistening,
    List.map_eq_flatMap]
  rfl

/-! ### The main result -/

/-- What calls on a new registry give back and leave, made in order. -/
def session (react : Reaction L W) (w : W) (calls : List (WatchedCall L)) :
    List WatchedAnswer × WatchedRegistry L × W :=
  (calls.mapM (make react)).run ({}, w)

/-- What listeners hear during a session. -/
def heard (react : Reaction L W) (w : W) (calls : List (WatchedCall L)) : List (Notice L) :=
  (session (noting react) (w, []) calls).2.2.2

theorem session_eq (hpassive : Passive react) (w : W) (calls : List (WatchedCall L)) :
    let start : WatchedRegistry L := {}
    ∃ w', session react w calls = (answers start calls, calls.foldl after start, w') ∧
      session (noting react) (w, []) calls =
        (answers start calls, calls.foldl after start, w', allNotices start calls) := by
  intro start
  obtain ⟨w', hplain, hnoted⟩ := run_mapM_make hpassive calls start w
  exact ⟨w', hplain, hnoted []⟩

theorem answers_session (hpassive : Passive react) (w : W) (calls : List (WatchedCall L)) :
    (session react w calls).1 = answers {} calls := by
  obtain ⟨w', hplain, -⟩ := session_eq hpassive w calls
  rw [hplain]

theorem registry_session (hpassive : Passive react) (w : W) (calls : List (WatchedCall L)) :
    (session react w calls).2.1 = calls.foldl after {} := by
  obtain ⟨w', hplain, -⟩ := session_eq hpassive w calls
  rw [hplain]

theorem heard_eq (hpassive : Passive react) (w : W) (calls : List (WatchedCall L)) :
    heard react w calls = allNotices {} calls := by
  obtain ⟨w', -, hnoted⟩ := session_eq hpassive w calls
  rw [heard, hnoted]

theorem heard_append (hpassive : Passive react) (w : W) (calls : List (WatchedCall L))
    (call : WatchedCall L) :
    heard react w (calls ++ [call]) = heard react w calls ++
      call.notices (calls.foldl after {}) := by
  rw [heard_eq hpassive, heard_eq hpassive, allNotices_append, allNotices, allNotices,
    List.append_nil]

/-- **Listeners hear of every change exactly once.** Calls are made on a new registry, and its
listeners leave it alone.

* Observing the listeners changes nothing of what calls give back and leave.
* Subscriptions are numbered from zero in the order in which they are made.
* The listeners left are those that were subscribed and whose numbers were not given up since, in
  order.
* If one more call registers or removes a color, then each listener left hears of it once, in order,
  with its kind and its identifier, and reads the colors that the call leaves; nobody hears of
  another call.

Numbers have 64 bits. As long as there are enough of them,

* no number is given twice;
* a subscription hears of each registration and each removal behind it until its number is given
  up: once, in the order of the calls, with kind and identifier. When it hears of a call, the
  registry already holds the colors that the call leaves;
* giving up a number succeeds exactly if the number was given and not given up since. Then its one
  listener is taken out and the others stay in order; otherwise all of them stay. -/
theorem notices_exact (hpassive : Passive react) (w : W) (calls : List (WatchedCall L)) :
    let noted := session (noting react) (w, []) calls
    let numbers := (session react w calls).1.filterMap WatchedAnswer.number?
    (noted.1, noted.2.1, noted.2.2.1) = session react w calls ∧
      numbers = (List.range (subscriptions calls)).map UInt64.ofNat ∧
      (session react w calls).2.1.listeners = subscribed 0 calls ∧
      (∀ call, heard react w (calls ++ [call]) = heard react w calls ++
        (RegistryCall.announcements ((changes calls).foldl RegistryCall.perform .empty)
          (changes [call])).flatMap fun announced =>
            (subscribed 0 calls).map fun subscription =>
              ⟨subscription.1, subscription.2, announced.1, announced.2⟩) ∧
      (subscriptions calls ≤ UInt64.size →
        numbers.Nodup ∧
          (∀ before listener later, calls = before ++ .subscribe listener :: later →
            let number := .ofNat (subscriptions before)
            (session react w calls).1[before.length]? = some (.subscribed number) ∧
              (heard react w calls).filter (·.number == number) =
                (RegistryCall.announcements ((changes before).foldl RegistryCall.perform .empty)
                  (changes (later.takeWhile (!ends number ·)))).map fun announced =>
                    ⟨number, listener, announced.1, announced.2⟩) ∧
          ∀ before number later, calls = before ++ .unsubscribe number :: later →
            ∃ removed, (session react w calls).1[before.length]? = some (.unsubscribed removed) ∧
              (removed = true ↔
                ∃ earlier listener since, before = earlier ++ .subscribe listener :: since ∧
                  .ofNat (subscriptions earlier) = number ∧ since.any (ends number) = false) ∧
              let listeners := (session react w before).2.1.listeners
              let left := (session react w (before ++ [.unsubscribe number])).2.1.listeners
              if removed then
                ∃ front listener back, listeners = front ++ (number, listener) :: back ∧
                  left = front ++ back
              else left = listeners) := by
  intro noted numbers
  have hnumbers : numbers = (List.range (subscriptions calls)).map UInt64.ofNat := by
    rw [List.range_eq_range', ← filterMap_number?_answers .new, ← answers_session hpassive w]
  refine ⟨?_, hnumbers, ?_, fun call => ?_, fun hroom => ⟨?_, ?_, ?_⟩⟩
  · obtain ⟨w', hplain, hnoted⟩ := session_eq hpassive w calls
    rw [show noted = _ from hnoted, hplain]
  · rw [registry_session hpassive, listeners_new]
  · rw [heard_append hpassive, notices_eq, colors_foldl_after, listeners_new]
    rfl
  · rw [hnumbers]
    exact nodup_map_ofNat_range hroom
  · rintro before listener later rfl number
    refine ⟨?_, ?_⟩
    · rw [answers_session hpassive, getElem?_answers, answer,
        (Numbered.foldl_after_new before).next]
    · rw [heard_eq hpassive, filter_notices_subscribe hroom, colors_foldl_after]
      rfl
  · rintro before number later rfl
    refine ⟨(before.foldl after {}).listeners.any (·.1 == number), ?_,
      any_listeners_iff before number, ?_⟩
    · rw [answers_session hpassive, getElem?_answers, answer]
    · have hnodup : ((before.foldl after ({} : WatchedRegistry L)).listeners.map
          Prod.fst).Nodup := by
        rw [subscriptions_append] at hroom
        rw [listeners_new]
        exact nodup_subscribed (by omega)
      rw [registry_session hpassive, registry_session hpassive, List.foldl_append]
      exact listeners_unsubscribe hnodup number

/-- A color that is registered again and removed, an unknown one that is removed, and two listeners,
of which one has gone meanwhile. Its number is given up once more, which does nothing. Listeners
read the new description of the color, and then no color at all. -/
theorem notices_exact_gone :
    let color (description : String) : Contribution := { id := "a", description, defaults := {} }
    let count : Reaction String Nat :=
      fun _ _ _ => modify fun (registry, heard) => (registry, heard + 1)
    let calls : List (WatchedCall String) :=
      [.change (.register (color "old")), .subscribe "first", .change (.register (color "new")),
        .subscribe "second", .unsubscribe 0, .change (.deregister "gone"),
        .change (.deregister "a"), .unsubscribe 0]
    let answers := (session count 0 calls).1
    let told (number : UInt64) := ((heard count 0 calls).filter (·.number == number)).map
      fun notice => (notice.listener, notice.change, notice.colors.toList)
    Passive count ∧ subscriptions calls ≤ UInt64.size ∧
      answers.filterMap WatchedAnswer.number? = [0, 1] ∧
      answers[4]? = some (.unsubscribed true) ∧ answers[7]? = some (.unsubscribed false) ∧
      told 0 = [("first", .registered "a", [color "new"])] ∧
      told 1 =
        [("second", .deregistered "gone", [color "new"]), ("second", .deregistered "a", [])] := by
  intro color count calls answers told
  have hcount : Passive count := fun _ _ _ _ => rfl
  have hroom : subscriptions calls ≤ UInt64.size := by decide
  obtain ⟨-, hnumbers, -, -, hnumbered⟩ := notices_exact hcount 0 calls
  obtain ⟨-, hsubscribed, hunsubscribed⟩ := hnumbered hroom
  obtain ⟨-, hfirst⟩ := hsubscribed [.change (.register (color "old"))] "first" _ rfl
  obtain ⟨-, hsecond⟩ := hsubscribed [.change (.register (color "old")), .subscribe "first",
    .change (.register (color "new"))] "second" _ rfl
  obtain ⟨removed, hanswer, hremoved, -⟩ := hunsubscribed [.change (.register (color "old")),
    .subscribe "first", .change (.register (color "new")), .subscribe "second"] 0 _ rfl
  obtain rfl : removed = true :=
    hremoved.mpr ⟨[.change (.register (color "old"))], "first", _, rfl, rfl, rfl⟩
  -- what listeners read is told by the list of colors, whatever the registry is like inside
  let colors : ColorRegistry := (ColorRegistry.empty.insert (color "old")).insert (color "new")
  have hlists : colors.Lists [color "new"] := by
    have hnew := (ColorRegistry.Lists.empty.insert (color "old")).insert (color "new")
    simpa [Contribution.enterInto, color] using hnew
  have hsecond : (heard count 0 calls).filter (·.number == 1) =
      (RegistryCall.announcements colors [.deregister "gone", .deregister "a"]).map fun announced =>
        ⟨1, "second", announced.1, announced.2⟩ := hsecond
  refine ⟨hcount, hroom, hnumbers, hanswer, ?_, ?_, ?_⟩
  · rw [show answers = WatchedCall.answers {} calls from answers_session hcount 0 calls]
    rfl
  · refine (congrArg (List.map _) hfirst).trans ?_
    show [("first", RegistryChange.registered "a", colors.toList)] = _
    rw [hlists.toList_eq]
  · simp only [told, hsecond, RegistryCall.announcements, RegistryCall.announced,
      RegistryCall.perform, List.map_cons, List.map_nil, (hlists.erase _).toList_eq,
      ((hlists.erase _).erase _).toList_eq]
    rfl

end WatchedCall

end Highlight
