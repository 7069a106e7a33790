import Highlight.Proofs.Counting
import Highlight.Proofs.Registry.Listing

/-!
# Subscriptions

Listeners are subscribed and unsubscribed between changes of the colors. Which listeners a registry
has is told by the calls alone: those that were subscribed and whose numbers were not given up since
(`WatchedCall.listeners_foldl_after`). Numbers of subscriptions are counted up and never given back,
so a number stands for one subscription only, as long as there are numbers left
(`WatchedCall.nodup_subscribed`), although it may be given up before it was ever given, and more
than once.
-/

namespace Highlight

variable {L : Type}

/-! ### Calls -/

/-- A call on a registry with listeners. -/
inductive WatchedCall (L : Type) where
  | change (call : RegistryCall)
  | subscribe (listener : L)
  | unsubscribe (number : UInt64)

/-- What a call gives back. -/
inductive WatchedAnswer where
  | changed
  | subscribed (number : UInt64)
  | unsubscribed (removed : Bool)

/-- The number that a subscription was given. -/
def WatchedAnswer.number? : WatchedAnswer → Option UInt64
  | subscribed number => some number
  | changed | unsubscribed _ => none

namespace WatchedCall

/-- What a call gives back. -/
def answer (registry : WatchedRegistry L) : WatchedCall L → WatchedAnswer
  | change _ => .changed
  | subscribe _ => .subscribed registry.nextSubscription
  | unsubscribe number => .unsubscribed (registry.listeners.any (·.1 == number))

/-- The registry behind a call. -/
def after (registry : WatchedRegistry L) : WatchedCall L → WatchedRegistry L
  | change call => { registry with colors := call.perform registry.colors }
  | subscribe listener => (registry.subscribe listener).2
  | unsubscribe number => (registry.unsubscribe number).2

/-- What calls give back, made in order. -/
def answers (registry : WatchedRegistry L) : List (WatchedCall L) → List WatchedAnswer
  | [] => []
  | call :: rest => call.answer registry :: answers (call.after registry) rest

/-- Whether a call subscribes a listener. -/
def subscribes : WatchedCall L → Bool
  | subscribe _ => true
  | change _ | unsubscribe _ => false

/-- Whether a call gives up the subscription of a number. -/
def ends (number : UInt64) : WatchedCall L → Bool
  | unsubscribe given => given == number
  | change _ | subscribe _ => false

/-- The change that a call makes, if it makes one. -/
def change? : WatchedCall L → Option RegistryCall
  | change call => some call
  | subscribe _ | unsubscribe _ => none

/-- How many listeners calls subscribe. -/
def subscriptions (calls : List (WatchedCall L)) : Nat := calls.countP subscribes

/-- The changes that calls make. -/
def changes (calls : List (WatchedCall L)) : List RegistryCall := calls.filterMap change?

/-- The listeners that calls subscribe and do not unsubscribe later, with their numbers; `given`
numbers were given before. -/
def subscribed (given : Nat) : List (WatchedCall L) → List (UInt64 × L)
  | [] => []
  | subscribe listener :: rest =>
      (if rest.any (ends (.ofNat given)) then [] else [(.ofNat given, listener)]) ++
        subscribed (given + 1) rest
  | change _ :: rest | unsubscribe _ :: rest => subscribed given rest

/-! ### Numbers -/

theorem subscriptions_append (before later : List (WatchedCall L)) :
    subscriptions (before ++ later) = subscriptions before + subscriptions later :=
  List.countP_append

theorem subscriptions_cons (call : WatchedCall L) (rest : List (WatchedCall L)) :
    subscriptions (call :: rest) = call.subscribes.toNat + subscriptions rest := by
  rw [subscriptions, List.countP_cons, Nat.add_comm]
  cases call <;> rfl

/-- If there are numbers left for all calls, then there is one for the first call. -/
theorem lt_of_subscribes {given : Nat} {call : WatchedCall L} {rest : List (WatchedCall L)}
    (hroom : given + subscriptions (call :: rest) ≤ UInt64.size)
    (hsubscribes : call.subscribes = true) : given < UInt64.size := by
  rw [subscriptions_cons, hsubscribes, Bool.toNat_true] at hroom
  omega

/-- So many numbers were given, from zero on, and whoever listens does so under one of them. -/
structure Numbered (given : Nat) (registry : WatchedRegistry L) : Prop where
  next : registry.nextSubscription = .ofNat given
  below : ∀ subscription ∈ registry.listeners, subscription.1.toNat < given

namespace Numbered

variable {given : Nat} {registry : WatchedRegistry L}

theorem new : Numbered 0 ({} : WatchedRegistry L) where
  next := rfl
  below _ hmem := nomatch hmem

theorem after (h : Numbered given registry) (call : WatchedCall L) :
    Numbered (given + call.subscribes.toNat) (call.after registry) := by
  cases call with
  | change call => exact ⟨h.next, h.below⟩
  | subscribe listener =>
      refine ⟨?_, fun subscription hmem => ?_⟩
      · rw [WatchedCall.after, WatchedRegistry.subscribe, h.next]
        exact (UInt64.ofNat_add given 1).symm
      · rcases List.mem_append.mp hmem with hold | hnew
        · exact Nat.lt_succ_of_lt (h.below subscription hold)
        · rw [List.mem_singleton.mp hnew, h.next]
          exact toNat_ofNat_lt_succ given
  | unsubscribe number =>
      exact ⟨h.next, fun subscription hmem => h.below subscription (List.mem_filter.mp hmem).1⟩

theorem foldl_after (h : Numbered given registry) (calls : List (WatchedCall L)) :
    Numbered (given + subscriptions calls) (calls.foldl WatchedCall.after registry) := by
  induction calls generalizing given registry with
  | nil => exact h
  | cons call rest ih =>
      rw [subscriptions_cons, ← Nat.add_assoc]
      exact ih (h.after call)

theorem foldl_after_new (calls : List (WatchedCall L)) :
    Numbered (subscriptions calls) (calls.foldl WatchedCall.after ({} : WatchedRegistry L)) := by
  simpa using new.foldl_after calls

end Numbered

theorem colors_foldl_after (calls : List (WatchedCall L)) (registry : WatchedRegistry L) :
    (calls.foldl after registry).colors =
      (changes calls).foldl RegistryCall.perform registry.colors := by
  induction calls generalizing registry with
  | nil => rfl
  | cons call rest ih =>
      rw [List.foldl_cons, ih]
      cases call <;> rfl

variable {given : Nat} {registry : WatchedRegistry L}

/-- Numbers are given in order. -/
theorem filterMap_number?_answers (h : Numbered given registry) (calls : List (WatchedCall L)) :
    (answers registry calls).filterMap WatchedAnswer.number? =
      (List.range' given (subscriptions calls)).map UInt64.ofNat := by
  induction calls generalizing given registry with
  | nil => rfl
  | cons call rest ih =>
      have hrest := ih (h.after call)
      cases call with
      | change call => exact hrest
      | unsubscribe number => exact hrest
      | subscribe listener =>
          rw [subscriptions_cons, Nat.add_comm]
          show registry.nextSubscription :: (answers _ rest).filterMap WatchedAnswer.number? =
            (List.range' given (subscriptions rest + 1)).map UInt64.ofNat
          rw [List.range'_succ, List.map_cons, ← h.next, hrest]
          rfl

/-- The answer to a call depends on the calls before it. -/
theorem getElem?_answers (before rest : List (WatchedCall L)) (call : WatchedCall L)
    (registry : WatchedRegistry L) :
    (answers registry (before ++ call :: rest))[before.length]? =
      some (call.answer (before.foldl after registry)) := by
  induction before generalizing registry with
  | nil => rfl
  | cons first before ih => exact ih _

/-! ### Listeners -/

/-- **The listeners of a registry are those that were subscribed and not unsubscribed since**, in
the order of their subscriptions. -/
theorem listeners_foldl_after (h : Numbered given registry) (calls : List (WatchedCall L)) :
    (calls.foldl after registry).listeners =
      registry.listeners.filter (fun subscription => !calls.any (ends subscription.1)) ++
        subscribed given calls := by
  induction calls generalizing given registry with
  | nil => simp [subscribed]
  | cons call rest ih =>
      rw [List.foldl_cons, ih (h.after call)]
      cases call with
      | change call => rfl
      | subscribe listener =>
          have hnew : [(UInt64.ofNat given, listener)].filter
              (fun subscription => !rest.any (ends subscription.1)) =
                if rest.any (ends (.ofNat given)) then [] else [(.ofNat given, listener)] := by
            rw [List.filter_cons, List.filter_nil]
            cases rest.any (ends (.ofNat given)) <;> rfl
          have hlisteners : (after registry (.subscribe listener)).listeners =
              registry.listeners ++ [(.ofNat given, listener)] := by
            rw [← h.next]
            rfl
          rw [subscribed, ← hnew, ← List.append_assoc, hlisteners, List.filter_append]
          rfl
      | unsubscribe number =>
          have hleft : (registry.listeners.filter (·.1 != number)).filter
              (fun subscription => !rest.any (ends subscription.1)) =
                registry.listeners.filter fun subscription =>
                  !(unsubscribe number :: rest).any (ends subscription.1) := by
            rw [List.filter_filter]
            refine List.filter_congr fun subscription _ => ?_
            rw [List.any_cons, ends, Bool.not_or, Bool.and_comm, bne, BEq.comm]
          rw [subscribed, ← hleft]
          rfl

/-- A subscription among calls is the first of them, or one of the others. -/
theorem exists_subscribe_cons {call : WatchedCall L} {rest : List (WatchedCall L)}
    {P : List (WatchedCall L) → List (WatchedCall L) → Prop} :
    (∃ earlier listener since, call :: rest = earlier ++ .subscribe listener :: since ∧
        P earlier since) ↔
      (∃ listener, call = .subscribe listener ∧ P [] rest) ∨
        ∃ earlier listener since, rest = earlier ++ .subscribe listener :: since ∧
          P (call :: earlier) since := by
  constructor
  · rintro ⟨earlier, listener, since, hcalls, hP⟩
    rcases List.cons_eq_append_iff.mp hcalls with ⟨rfl, hfirst⟩ | ⟨earlier, rfl, rfl⟩
    · obtain ⟨rfl, rfl⟩ := List.cons.inj hfirst
      exact .inl ⟨listener, rfl, hP⟩
    · exact .inr ⟨earlier, listener, since, rfl, hP⟩
  · rintro (⟨listener, rfl, hP⟩ | ⟨earlier, listener, since, rfl, hP⟩)
    · exact ⟨[], listener, rest, rfl, hP⟩
    · exact ⟨call :: earlier, listener, since, rfl, hP⟩

/-- A number is left if some call was given it when it subscribed and no later call gave it up. -/
theorem mem_subscribed {number : UInt64} {calls : List (WatchedCall L)} :
    number ∈ (subscribed given calls).map Prod.fst ↔
      ∃ earlier listener since, calls = earlier ++ .subscribe listener :: since ∧
        .ofNat (given + subscriptions earlier) = number ∧ since.any (ends number) = false := by
  induction calls generalizing given with
  | nil => simp [subscribed]
  | cons call rest ih =>
      rw [exists_subscribe_cons]
      simp only [subscriptions_cons, ← Nat.add_assoc]
      cases call with
      | change call => simpa [subscribed, subscribes] using ih
      | unsubscribe other => simpa [subscribed, subscribes] using ih
      | subscribe listener =>
          rw [subscribed, List.map_append, List.mem_append, ih]
          refine or_congr ?_ ?_
          · cases hgiven : rest.any (ends (.ofNat given)) with
            | true =>
                constructor
                · simp
                · rintro ⟨-, -, rfl, hkept⟩
                  exact absurd (hgiven.symm.trans hkept) (by simp)
            | false =>
                constructor
                · intro hmem
                  obtain rfl : number = .ofNat given := by simpa using hmem
                  exact ⟨listener, rfl, rfl, hgiven⟩
                · rintro ⟨-, -, rfl, -⟩
                  exact List.mem_singleton.mpr rfl
          · rfl

/-- As long as there are numbers left, no two listeners have the same one. -/
theorem nodup_subscribed {calls : List (WatchedCall L)}
    (hroom : given + subscriptions calls ≤ UInt64.size) :
    ((subscribed given calls).map Prod.fst).Nodup := by
  induction calls generalizing given with
  | nil => exact List.nodup_nil
  | cons call rest ih =>
      rw [subscriptions_cons, ← Nat.add_assoc] at hroom
      have hrest := ih hroom
      cases call with
      | change call => exact hrest
      | unsubscribe number => exact hrest
      | subscribe listener =>
          rw [subscribed]
          split
          · exact hrest
          · refine hrest.cons fun hmem => ?_
            -- a later subscription has a greater number
            obtain ⟨earlier, later, since, heq, hnumber, -⟩ := mem_subscribed.mp hmem
            have hlater : subscriptions earlier < subscriptions rest := by
              rw [heq, subscriptions_append, subscriptions_cons]
              simp only [subscribes, Bool.toNat_true]
              omega
            refine ne_ofNat_of_toNat_lt ?_ (Nat.lt_of_lt_of_le ?_ hroom) hnumber.symm
            · exact Nat.lt_add_right _ (toNat_ofNat_lt_succ given)
            · exact Nat.add_lt_add_left hlater _

/-! ### Giving up a number -/

/-- The listeners of a registry that was new. -/
theorem listeners_new (calls : List (WatchedCall L)) :
    (calls.foldl after ({} : WatchedRegistry L)).listeners = subscribed 0 calls :=
  listeners_foldl_after .new calls

theorem any_listeners_iff (calls : List (WatchedCall L)) (number : UInt64) :
    (calls.foldl after ({} : WatchedRegistry L)).listeners.any (·.1 == number) = true ↔
      ∃ earlier listener since, calls = earlier ++ .subscribe listener :: since ∧
        .ofNat (subscriptions earlier) = number ∧ since.any (ends number) = false := by
  have hmem : (subscribed 0 calls).any (·.1 == number) = true ↔
      number ∈ (subscribed 0 calls).map Prod.fst := by
    simp [List.any_eq_true]
  rw [listeners_new, hmem, mem_subscribed]
  simp only [Nat.zero_add]

/-- Unsubscribing takes out the one listener of a number, or nothing. -/
theorem listeners_unsubscribe (hnodup : (registry.listeners.map Prod.fst).Nodup)
    (number : UInt64) :
    let left := (after registry (.unsubscribe number)).listeners
    if registry.listeners.any (·.1 == number) then
      ∃ front listener back, registry.listeners = front ++ (number, listener) :: back ∧
        left = front ++ back
    else left = registry.listeners := by
  intro left
  have hleft : left = registry.listeners.filter (·.1 != number) := rfl
  split
  · next hany =>
      obtain ⟨⟨given, listener⟩, hmem, hgiven⟩ := List.any_eq_true.mp hany
      obtain rfl : given = number := by simpa using hgiven
      obtain ⟨front, back, hlisteners⟩ := List.append_of_mem hmem
      refine ⟨front, listener, back, hlisteners, ?_⟩
      rw [hlisteners, List.map_append, List.map_cons, List.nodup_middle, List.nodup_cons,
        ← List.map_append] at hnodup
      rw [hleft, hlisteners, List.filter_append, List.filter_cons_of_neg (by simp),
        ← List.filter_append, List.filter_eq_self]
      intro subscription hother
      simpa using fun heq : subscription.1 = given =>
        hnodup.1 (List.mem_map.mpr ⟨subscription, hother, heq⟩)
  · next hnone =>
      rw [hleft, List.filter_eq_self]
      intro subscription hmem
      simpa using fun heq : subscription.1 = number =>
        hnone (List.any_eq_true.mpr ⟨subscription, hmem, by simpa using heq⟩)

end WatchedCall

end Highlight
