import Mathlib.Data.List.Chain
import Switchboard.Registry.Basic

/-!
# Listeners and watched keys

Listeners come to keys and go. The backend is told to watch a key when the first listener comes,
and to watch it no more when the last one goes; a listener that is there already and one that is
not there make no difference. So the keys that are watched are those that anybody listens to, and
what the backend is told about one key alternates.
-/

namespace Switchboard

private theorem addListener_ne_nil (listeners : List ListenerId) (l : ListenerId) :
    addListener listeners l ≠ [] := by
  unfold addListener
  split
  · next h => exact List.ne_nil_of_mem h
  · simp

private theorem mem_addListener {listeners : List ListenerId} {l l' : ListenerId} :
    l' ∈ addListener listeners l ↔ l' ∈ listeners ∨ l' = l := by
  unfold addListener
  split
  · next hl =>
    refine (or_iff_left_of_imp ?_).symm
    rintro rfl
    exact hl
  · simp

private theorem nodup_addListener {listeners : List ListenerId} (h : listeners.Nodup)
    (l : ListenerId) :
    (addListener listeners l).Nodup := by
  unfold addListener
  split
  · exact h
  · next hl =>
    refine List.nodup_append.mpr ⟨h, List.pairwise_singleton _ l, fun a ha b hb heq => hl ?_⟩
    rwa [← List.mem_singleton.mp hb, ← heq]

namespace Subscriptions

variable (s : Subscriptions) (key other : String) (l : ListenerId)

/-- Every key that is there has a listener, and none has one twice. -/
def Tidy : Prop :=
  ∀ (key : String) (listeners : List ListenerId), s[key]? = some listeners →
    listeners ≠ [] ∧ listeners.Nodup

private theorem of_eq : s.of key = s[key]?.getD [] := by
  unfold of
  rw [Std.ExtTreeMap.getD_eq_getD_getElem?]

/-- A listener that comes joins those that are there. -/
theorem getElem?_subscribe :
    (s.subscribe key l).2[other]? =
      if key = other then some (addListener (s.of key) l) else s[other]? := by
  rw [of_eq]
  unfold subscribe
  split
  · next listeners h =>
    simp only [h, Std.ExtTreeMap.getElem?_insert, Std.LawfulEqCmp.compare_eq_iff_eq,
      Option.getD_some]
  · next h =>
    simp only [h, Std.ExtTreeMap.getElem?_insert, Std.LawfulEqCmp.compare_eq_iff_eq,
      Option.getD_none]
    rfl

private theorem of_subscribe :
    (s.subscribe key l).2.of other =
      if key = other then addListener (s.of key) l else s.of other := by
  rw [of_eq, getElem?_subscribe]
  split
  · rfl
  · rw [of_eq]

variable {s}

private theorem Tidy.isEmpty_of (h : s.Tidy) : (s.of key).isEmpty = s[key]?.isNone := by
  rw [of_eq]
  cases hs : s[key]? with
  | none => rfl
  | some listeners => simp [(h key listeners hs).1]

/-- A listener is the first of its key just if nobody listened. -/
theorem Tidy.subscribe_fst (h : s.Tidy) : (s.subscribe key l).1 = (s.of key).isEmpty := by
  rw [h.isEmpty_of]
  unfold subscribe
  split
  · next hs => rw [hs]; rfl
  · next hs => rw [hs]; rfl

private theorem Tidy.subscribe (h : s.Tidy) : (s.subscribe key l).2.Tidy := by
  intro other listeners hl
  rw [getElem?_subscribe] at hl
  split at hl
  · cases hl
    refine ⟨addListener_ne_nil _ l, nodup_addListener ?_ l⟩
    rw [of_eq]
    cases hs : s[key]? with
    | none => exact List.nodup_nil
    | some listeners => exact (h key listeners hs).2
  · exact h other listeners hl

/-- Who does not listen leaves a list as it is. -/
theorem filter_of_not_mem {listeners : List ListenerId} (hl : l ∉ listeners) :
    listeners.filter (· ≠ l) = listeners :=
  List.filter_eq_self.mpr fun _ ha => decide_eq_true fun heq => hl (heq ▸ ha)

/-- A listener that goes makes a difference just if it is there. -/
theorem unsubscribe_eq :
    s.unsubscribe key l =
      if l ∈ s.of key then
        if ((s.of key).filter (· ≠ l)).isEmpty then (true, s.erase key)
        else (false, s.insert key ((s.of key).filter (· ≠ l)))
      else (false, s) := by
  rw [of_eq]
  unfold unsubscribe
  cases hs : s[key]? with
  | none => rfl
  | some listeners =>
    have hlength : (listeners.filter (· ≠ l)).length = listeners.length ↔ l ∉ listeners := by
      refine ⟨fun heq hl => ?_, fun hl => by rw [filter_of_not_mem l hl]⟩
      rw [List.filter_sublist.eq_of_length heq |>.symm, List.mem_filter] at hl
      exact absurd rfl (of_decide_eq_true hl.2)
    simp only [Option.getD_some, hlength, ite_not]

/-- A listener that goes leaves the others, and the key if there are none. -/
theorem Tidy.getElem?_unsubscribe (h : s.Tidy) :
    (s.unsubscribe key l).2[other]? =
      if key = other then
        if ((s.of key).filter (· ≠ l)).isEmpty then none else some ((s.of key).filter (· ≠ l))
      else s[other]? := by
  rw [unsubscribe_eq]
  split
  · split
    · rw [Std.ExtTreeMap.getElem?_erase]
      simp only [Std.LawfulEqCmp.compare_eq_iff_eq]
    · rw [Std.ExtTreeMap.getElem?_insert]
      simp only [Std.LawfulEqCmp.compare_eq_iff_eq]
  · next hl =>
    rw [filter_of_not_mem l hl]
    split
    · next heq =>
      rw [h.isEmpty_of, of_eq, ← heq]
      cases s[key]? <;> rfl
    · rfl

private theorem Tidy.of_unsubscribe (h : s.Tidy) :
    (s.unsubscribe key l).2.of other =
      if key = other then (s.of key).filter (· ≠ l) else s.of other := by
  rw [of_eq, h.getElem?_unsubscribe]
  split
  · split
    · next hempty => rw [List.isEmpty_iff.mp hempty]; rfl
    · rfl
  · rw [of_eq]

/-- A listener was the last of its key just if nobody listens without it any more. -/
theorem unsubscribe_fst :
    (s.unsubscribe key l).1 = (!(s.of key).isEmpty && ((s.of key).filter (· ≠ l)).isEmpty) := by
  rw [unsubscribe_eq]
  split
  · next hl =>
    rw [List.isEmpty_eq_false_iff.mpr (List.ne_nil_of_mem hl)]
    split
    · next hempty => rw [hempty]; rfl
    · next hrest => rw [Bool.of_not_eq_true hrest]; rfl
  · next hl => rw [filter_of_not_mem l hl, Bool.not_and_self]

private theorem Tidy.unsubscribe (h : s.Tidy) : (s.unsubscribe key l).2.Tidy := by
  intro other listeners hl
  rw [h.getElem?_unsubscribe] at hl
  split at hl
  · split at hl
    · cases hl
    · next hrest =>
      cases hl
      refine ⟨mt List.isEmpty_iff.mpr hrest, List.Pairwise.filter _ ?_⟩
      rw [of_eq]
      cases hs : s[key]? with
      | none => exact List.nodup_nil
      | some listeners => exact (h key listeners hs).2
  · exact h other listeners hl

end Subscriptions

namespace Registry

variable (r : Registry) (change : Bool × Subscriptions) (f : Membership → Membership)

/-- A registry with other listeners, whose membership changes if the change of listeners says so. -/
def relisten : Bool × Registry :=
  let registry := { r with subscriptions := change.2 }
  (change.1, if change.1 then registry.updateMembership f else registry)

private theorem subscribe_eq (key : String) (l : ListenerId) :
    r.subscribe key l = r.relisten (r.subscriptions.subscribe key l) fun m =>
      { m with watched := m.watched.insert key } := rfl

private theorem unsubscribe_eq (key : String) (l : ListenerId) :
    r.unsubscribe key l = r.relisten (r.subscriptions.unsubscribe key l) fun m =>
      { m with watched := m.watched.erase key } := rfl

private theorem subscriptions_relisten : (r.relisten change f).2.subscriptions = change.2 := by
  unfold relisten updateMembership
  dsimp only
  split
  · split <;> rfl
  · rfl

private theorem backend_relisten {m : Membership} {holders : Nat}
    (h : r.backend = .member m holders) :
    (r.relisten change f).2.backend = .member (if change.1 then f m else m) holders := by
  unfold relisten updateMembership
  dsimp only
  rw [h]
  split <;> rfl

section Backend

variable {m : Membership} {holders : Nat} (h : r.backend = .member m holders)
  (key : String) (l : ListenerId)

include h

/-- The first listener of a key has it watched. -/
theorem backend_subscribe : (r.subscribe key l).2.backend =
    .member (if (r.subscriptions.subscribe key l).1 then { m with watched := m.watched.insert key }
      else m) holders :=
  backend_relisten r _ _ h

/-- When the last listener of a key goes it is watched no more. -/
theorem backend_unsubscribe : (r.unsubscribe key l).2.backend =
    .member (if (r.subscriptions.unsubscribe key l).1 then { m with watched := m.watched.erase key }
      else m) holders :=
  backend_relisten r _ _ h

end Backend

end Registry

namespace Listening

/-- A call about who listens to an address. -/
inductive Call where
  /-- A listener comes. -/
  | subscribe (query : Address) (l : ListenerId)
  /-- A listener goes. -/
  | unsubscribe (query : Address) (l : ListenerId)

/-- The key that a call is about. -/
def Call.key : Call → String
  | subscribe query _ | unsubscribe query _ => query.subscriptionKey

/-- What a call makes of the listeners of its key. -/
def Call.change : Call → List ListenerId → List ListenerId
  | subscribe _ l, listeners => addListener listeners l
  | unsubscribe _ l, listeners => listeners.filter (· ≠ l)

/-- Whether a listener came to a key and did not go from it since. -/
def Stays (calls : List Call) (key : String) (l : ListenerId) : Prop :=
  ∃ before query later, calls = before ++ .subscribe query l :: later ∧
    query.subscriptionKey = key ∧
      ∀ query', .unsubscribe query' l ∈ later → query'.subscriptionKey ≠ key

/-- Nobody stays who never came. -/
theorem not_stays_nil (key : String) (l : ListenerId) : ¬ Stays [] key l := by
  rintro ⟨before, query, later, hcalls, -⟩
  cases List.append_eq_nil_iff.mp hcalls.symm |>.2

/-- The listener that comes to a key stays there, with those who stayed before. -/
theorem stays_concat_subscribe {calls : List Call} {query : Address} {l l' : ListenerId}
    {key : String} : Stays (calls ++ [.subscribe query l]) key l' ↔
      (query.subscriptionKey = key ∧ l' = l) ∨ Stays calls key l' := by
  constructor
  · rintro ⟨before, query', later, hcalls, hkey, hstays⟩
    rcases List.eq_nil_or_concat later with rfl | ⟨later', call, rfl⟩
    · obtain ⟨-, hcall⟩ := List.append_inj' hcalls rfl
      cases hcall
      exact .inl ⟨hkey, rfl⟩
    · rw [List.concat_eq_append, ← List.cons_append, ← List.append_assoc] at hcalls
      obtain ⟨rfl, -⟩ := List.append_inj' hcalls rfl
      exact .inr ⟨before, query', later', rfl, hkey, fun q hm => hstays q (by simp [hm])⟩
  · rintro (⟨hkey, rfl⟩ | ⟨before, query', later, rfl, hkey, hstays⟩)
    · exact ⟨calls, query, [], rfl, hkey, fun _ hm => by cases hm⟩
    · refine ⟨before, query', later ++ [.subscribe query l], by simp, hkey, fun q hm => ?_⟩
      exact hstays q (by simpa using hm)

/-- The listener that goes from a key stays there no more. -/
theorem stays_concat_unsubscribe {calls : List Call} {query : Address} {l l' : ListenerId}
    {key : String} : Stays (calls ++ [.unsubscribe query l]) key l' ↔
      Stays calls key l' ∧ ¬(query.subscriptionKey = key ∧ l' = l) := by
  constructor
  · rintro ⟨before, query', later, hcalls, hkey, hstays⟩
    rcases List.eq_nil_or_concat later with rfl | ⟨later', call, rfl⟩
    · obtain ⟨-, hcall⟩ := List.append_inj' hcalls rfl
      cases hcall
    · rw [List.concat_eq_append, ← List.cons_append, ← List.append_assoc] at hcalls
      obtain ⟨rfl, hcall⟩ := List.append_inj' hcalls rfl
      cases hcall
      refine ⟨⟨before, query', later', rfl, hkey, fun q hm => hstays q (by simp [hm])⟩, ?_⟩
      rintro ⟨hsame, rfl⟩
      exact hstays query (by simp) hsame
  · rintro ⟨⟨before, query', later, rfl, hkey, hstays⟩, hother⟩
    refine ⟨before, query', later ++ [.unsubscribe query l], by simp, hkey, fun q hm => ?_⟩
    rcases List.mem_append.mp hm with hm | hm
    · exact hstays q hm
    · cases List.mem_singleton.mp hm
      exact fun hsame => hother ⟨hsame, rfl⟩

/-- What a backend is told about a key. -/
inductive Order where
  /-- To watch it. -/
  | watch
  /-- To watch it no more. -/
  | unwatch
deriving DecidableEq

/-- What a backend is told when the number of a key's listeners changes. -/
def Order.ofCounts : Nat → Nat → List Order
  | 0, 1 => [watch]
  | 1, 0 => [unwatch]
  | _, _ => []

/-- As long as somebody listens, the backend is told nothing. -/
theorem Order.ofCounts_of_pos {before left : Nat} (hbefore : 0 < before) (hleft : 0 < left) :
    Order.ofCounts before left = [] := by
  unfold ofCounts
  split
  · cases hbefore
  · cases hleft
  · rfl

/-- As long as as many listen as before, the backend is told nothing. -/
theorem Order.ofCounts_self (count : Nat) : Order.ofCounts count count = [] := by
  cases count with
  | zero => rfl
  | succ count => exact ofCounts_of_pos count.succ_pos count.succ_pos

private theorem Order.ofCounts_addListener (listeners : List ListenerId) (l : ListenerId) :
    Order.ofCounts listeners.length (addListener listeners l).length =
      if listeners.isEmpty then [watch] else [] := by
  cases listeners with
  | nil => rfl
  | cons first rest =>
    exact ofCounts_of_pos (Nat.succ_pos _) (List.length_pos_of_ne_nil (addListener_ne_nil _ l))

private theorem Order.ofCounts_filter {listeners : List ListenerId} (h : listeners.Nodup)
    (l : ListenerId) :
    Order.ofCounts listeners.length (listeners.filter (· ≠ l)).length =
      if !listeners.isEmpty && (listeners.filter (· ≠ l)).isEmpty then [unwatch] else [] := by
  cases listeners with
  | nil => rfl
  | cons first rest =>
    cases hleft : (first :: rest).filter (· ≠ l) with
    | nil =>
      -- All who listened are the one who goes, so there was one alone.
      have hall : ∀ other ∈ first :: rest, other = l := by simpa using hleft
      have hrest : rest = [] := by
        refine List.eq_nil_iff_forall_not_mem.mpr fun other hmem => ?_
        refine (List.nodup_cons.mp h).1 ?_
        rwa [hall first List.mem_cons_self, ← hall other (List.mem_cons_of_mem _ hmem)]
      rw [hrest]
      rfl
    | cons _ _ => exact ofCounts_of_pos (Nat.succ_pos _) (Nat.succ_pos _)

/-- A listener that goes and is not the last of its key leaves listeners there if there were any. -/
theorem eq_nil_iff_of_not_last {listeners : List ListenerId} {l : ListenerId}
    (h : ¬(!listeners.isEmpty && (listeners.filter (· ≠ l)).isEmpty) = true) :
    listeners = [] ↔ listeners.filter (· ≠ l) = [] := by
  refine ⟨fun hnil => by rw [hnil]; rfl, fun hnil => ?_⟩
  by_contra hne
  exact h (by rw [hnil, List.isEmpty_eq_false_iff.mpr hne]; rfl)

/-- A call brings the first listener of a key, or takes the last one away, or does neither. -/
theorem Call.change_cases {listeners : List ListenerId} (h : listeners.Nodup) (call : Call) :
    let left := call.change listeners
    let orders := Order.ofCounts listeners.length left.length
    (listeners = [] ∧ left ≠ [] ∧ orders = [.watch]) ∨
      (listeners ≠ [] ∧ left = [] ∧ orders = [.unwatch]) ∨
      ((listeners = [] ↔ left = []) ∧ orders = []) := by
  cases call with
  | subscribe query l =>
    have hne := addListener_ne_nil listeners l
    have horders := Order.ofCounts_addListener listeners l
    split at horders
    · next hfirst => exact .inl ⟨List.isEmpty_iff.mp hfirst, hne, horders⟩
    · next hmore =>
      exact .inr (.inr ⟨iff_of_false (mt List.isEmpty_iff.mpr hmore) hne, horders⟩)
  | unsubscribe query l =>
    have horders := Order.ofCounts_filter h l
    split at horders
    · next hlast =>
      obtain ⟨hsome, hnone⟩ := Bool.and_eq_true_iff.mp hlast
      refine .inr (.inl ⟨?_, List.isEmpty_iff.mp hnone, horders⟩)
      simpa using hsome
    · next hmore => exact .inr (.inr ⟨eq_nil_iff_of_not_last hmore, horders⟩)

/-- What is told last and differs from what was told before. -/
theorem Order.isChain_concat {told : List Order} {last order : Order}
    (h : told.IsChain (· ≠ ·)) (hlast : told.getLast? = some last) (hne : last ≠ order) :
    (told ++ [order]).IsChain (· ≠ ·) ∧ (told ++ [order]).getLast? = some order := by
  refine ⟨h.append (List.isChain_singleton order) fun x hx y hy => ?_, List.getLast?_concat⟩
  obtain rfl : last = x := Option.some.inj (hlast.symm.trans hx)
  obtain rfl : order = y := Option.some.inj hy
  exact hne

/-- A registry, and what its backend was told, with the keys that it was about. -/
structure Scene where
  /-- The registry. -/
  registry : Registry
  /-- What its backend was told, oldest first. -/
  orders : List (String × Order) := []

namespace Scene

/-- The scene after a call. -/
def after (s : Scene) : Call → Scene
  | .subscribe query l =>
    let (first, registry) := s.registry.subscribe query.subscriptionKey l
    { registry, orders := s.orders ++ if first then [(query.subscriptionKey, .watch)] else [] }
  | .unsubscribe query l =>
    let (last, registry) := s.registry.unsubscribe query.subscriptionKey l
    { registry, orders := s.orders ++ if last then [(query.subscriptionKey, .unwatch)] else [] }

/-- The scene after several calls. -/
def run (s : Scene) (calls : List Call) : Scene := calls.foldl after s

/-- A registry that is a member of a coordinator, to which nobody listens yet. -/
def opened (registry : Registry) (m : Membership) (holders : Nat) : Scene where
  registry := { registry with
    subscriptions := ∅, backend := .member { m with watched := ∅ } holders }

/-- What the backend was told about a key, oldest first. -/
def ordersOf (s : Scene) (key : String) : List Order :=
  (s.orders.filter (·.1 = key)).map Prod.snd

/-- Who listens to a key. -/
def listeners (s : Scene) (key : String) : List ListenerId := s.registry.subscriptions.of key

/-- The registry is a member of a coordinator that watches the keys that anybody listens to. -/
def Watching (s : Scene) : Prop :=
  ∃ m holders, s.registry.backend = .member m holders ∧
    ∀ key, key ∈ m.watched ↔ s.listeners key ≠ []

/-- Listeners, watched keys and what the backend was told are in step. A key that the backend was
told nothing about counts as one that it was told not to watch. -/
structure Sound (s : Scene) : Prop where
  /-- Who listens is kept without empty lists and without repetitions. -/
  tidy : s.registry.subscriptions.Tidy
  /-- What is watched is what anybody listens to. -/
  watching : s.Watching
  /-- The backend is never told the same of a key twice in a row. -/
  chain : ∀ key, (.unwatch :: s.ordersOf key).IsChain (· ≠ ·)
  /-- What it was told last is to watch the key just if anybody listens. -/
  last : ∀ key, (.unwatch :: s.ordersOf key).getLast? =
    some (if s.listeners key = [] then .unwatch else .watch)

variable {s : Scene}

/-- A call changes who listens to its key. -/
theorem listeners_after (h : s.registry.subscriptions.Tidy) (call : Call) (key : String) :
    (s.after call).listeners key =
      if call.key = key then call.change (s.listeners call.key) else s.listeners key := by
  cases call with
  | subscribe query l =>
    change Subscriptions.of (s.registry.subscribe query.subscriptionKey l).2.subscriptions key = _
    rw [Registry.subscribe_eq, Registry.subscriptions_relisten]
    exact Subscriptions.of_subscribe ..
  | unsubscribe query l =>
    change Subscriptions.of (s.registry.unsubscribe query.subscriptionKey l).2.subscriptions key = _
    rw [Registry.unsubscribe_eq, Registry.subscriptions_relisten]
    exact h.of_unsubscribe ..

private theorem tidy_after (h : s.registry.subscriptions.Tidy) (call : Call) :
    (s.after call).registry.subscriptions.Tidy := by
  cases call with
  | subscribe query l =>
    change Subscriptions.Tidy (s.registry.subscribe query.subscriptionKey l).2.subscriptions
    rw [Registry.subscribe_eq, Registry.subscriptions_relisten]
    exact h.subscribe _ _
  | unsubscribe query l =>
    change Subscriptions.Tidy (s.registry.unsubscribe query.subscriptionKey l).2.subscriptions
    rw [Registry.unsubscribe_eq, Registry.subscriptions_relisten]
    exact h.unsubscribe _ _

private theorem tidy_run (h : s.registry.subscriptions.Tidy) (calls : List Call) :
    (s.run calls).registry.subscriptions.Tidy := by
  induction calls generalizing s with
  | nil => exact h
  | cons call rest ih => exact ih (tidy_after h call)

private theorem nodup_listeners (h : s.registry.subscriptions.Tidy) (key : String) :
    (s.listeners key).Nodup := by
  rw [listeners, Subscriptions.of_eq]
  cases hl : s.registry.subscriptions[key]? with
  | none => exact List.nodup_nil
  | some listeners => exact (h key listeners hl).2

/-- The backend is told when the first listener of a key comes and when the last one goes. -/
theorem orders_after (h : s.registry.subscriptions.Tidy) (call : Call) :
    (s.after call).orders = s.orders ++
      (Order.ofCounts (s.listeners call.key).length
        (call.change (s.listeners call.key)).length).map (call.key, ·) := by
  have htold : ∀ (told : Bool) (key : String) (order : Order),
      (if told then [(key, order)] else []) = (if told then [order] else []).map (key, ·) := by
    intro told key order
    cases told <;> rfl
  cases call with
  | subscribe query l =>
    refine congrArg (s.orders ++ ·) ?_
    rw [Call.change, Order.ofCounts_addListener, listeners, ← h.subscribe_fst _ l]
    exact htold ..
  | unsubscribe query l =>
    refine congrArg (s.orders ++ ·) ?_
    rw [Call.change, Order.ofCounts_filter (nodup_listeners h _), listeners,
      ← Subscriptions.unsubscribe_fst]
    exact htold ..

/-- What the backend is told about a key depends on how many listen to it before and after. -/
theorem ordersOf_after (h : s.registry.subscriptions.Tidy) (call : Call) (key : String) :
    (s.after call).ordersOf key = s.ordersOf key ++
      Order.ofCounts (s.listeners key).length ((s.after call).listeners key).length := by
  rw [listeners_after h, ordersOf, orders_after h, List.filter_append, List.map_append, ← ordersOf]
  refine congrArg (s.ordersOf key ++ ·) ?_
  by_cases heq : call.key = key
  · subst heq
    simp [List.filter_map, Function.comp_def]
  · simp [List.filter_map, Function.comp_def, heq, Order.ofCounts_self]

/-- A call leaves the keys watched that anybody listens to. -/
theorem Watching.after (h : s.Watching) (htidy : s.registry.subscriptions.Tidy) (call : Call) :
    (s.after call).Watching := by
  obtain ⟨m, holders, hm, hwatched⟩ := h
  cases call with
  | subscribe query l =>
    refine ⟨_, holders, s.registry.backend_subscribe hm query.subscriptionKey l, fun key => ?_⟩
    rw [htidy.subscribe_fst, listeners_after htidy, Call.key, Call.change]
    split
    · next hfirst =>
      rw [Std.ExtTreeSet.mem_insert, Std.LawfulEqCmp.compare_eq_iff_eq, hwatched]
      split
      · next heq => exact iff_of_true (.inl heq) (addListener_ne_nil _ l)
      · next hne => exact or_iff_right hne
    · next hmore =>
      rw [hwatched]
      split
      · next heq =>
        rw [← heq]
        exact iff_of_true (mt List.isEmpty_iff.mpr hmore) (addListener_ne_nil _ l)
      · rfl
  | unsubscribe query l =>
    refine ⟨_, holders, s.registry.backend_unsubscribe hm query.subscriptionKey l, fun key => ?_⟩
    rw [Subscriptions.unsubscribe_fst, listeners_after htidy, Call.key, Call.change]
    split
    · next hlast =>
      rw [Std.ExtTreeSet.mem_erase, ne_eq, Std.LawfulEqCmp.compare_eq_iff_eq, hwatched]
      split
      · next heq =>
        have hempty := List.isEmpty_iff.mp (Bool.and_eq_true_iff.mp hlast).2
        exact iff_of_false (fun hboth => hboth.1 heq) (not_not_intro hempty)
      · next hne => exact and_iff_right hne
    · next hmore =>
      rw [hwatched]
      split
      · next heq =>
        rw [← heq]
        exact not_congr (eq_nil_iff_of_not_last hmore)
      · rfl

/-- The backend is told of the first listener of a key and of the last one, and of no other. -/
theorem ordersOf_after_cases (h : s.registry.subscriptions.Tidy) (call : Call) (key : String) :
    (s.listeners key = [] ∧ (s.after call).listeners key ≠ [] ∧
      (s.after call).ordersOf key = s.ordersOf key ++ [.watch]) ∨
    (s.listeners key ≠ [] ∧ (s.after call).listeners key = [] ∧
      (s.after call).ordersOf key = s.ordersOf key ++ [.unwatch]) ∨
    ((s.listeners key = [] ↔ (s.after call).listeners key = []) ∧
      (s.after call).ordersOf key = s.ordersOf key) := by
  rw [ordersOf_after h, listeners_after h]
  split
  · next heq =>
    rw [heq]
    rcases call.change_cases (nodup_listeners h key) with ⟨h₁, h₂, ho⟩ | ⟨h₁, h₂, ho⟩ | ⟨hiff, ho⟩
    · exact .inl ⟨h₁, h₂, by rw [ho]⟩
    · exact .inr (.inl ⟨h₁, h₂, by rw [ho]⟩)
    · exact .inr (.inr ⟨hiff, by rw [ho, List.append_nil]⟩)
  · exact .inr (.inr ⟨.rfl, by rw [Order.ofCounts_self, List.append_nil]⟩)

/-- A call leaves everything in step. -/
theorem Sound.after (h : s.Sound) (call : Call) : (s.after call).Sound := by
  have hboth : ∀ key, (.unwatch :: (s.after call).ordersOf key).IsChain (· ≠ ·) ∧
      (.unwatch :: (s.after call).ordersOf key).getLast? =
        some (if (s.after call).listeners key = [] then .unwatch else .watch) := by
    intro key
    have hchain := h.chain key
    have hlast := h.last key
    rcases ordersOf_after_cases h.tidy call key with ⟨h₁, h₂, ho⟩ | ⟨h₁, h₂, ho⟩ | ⟨hiff, ho⟩
    · rw [ho, if_neg h₂, ← List.cons_append]
      rw [if_pos h₁] at hlast
      exact Order.isChain_concat hchain hlast nofun
    · rw [ho, if_pos h₂, ← List.cons_append]
      rw [if_neg h₁] at hlast
      exact Order.isChain_concat hchain hlast nofun
    · rw [ho, hlast]
      exact ⟨hchain, by simp only [hiff]⟩
  exact ⟨tidy_after h.tidy call, h.watching.after h.tidy call, fun key => (hboth key).1,
    fun key => (hboth key).2⟩

private theorem Sound.run (h : s.Sound) (calls : List Call) : (s.run calls).Sound := by
  induction calls generalizing s with
  | nil => exact h
  | cons call rest ih => exact ih (h.after call)

/-- After another call, those listen to a key who stay there, if it was so before. -/
theorem mem_listeners_after {calls : List Call} (h : s.registry.subscriptions.Tidy)
    (hstays : ∀ key l, l ∈ s.listeners key ↔ Stays calls key l) (call : Call) (key : String)
    (l : ListenerId) : l ∈ (s.after call).listeners key ↔ Stays (calls ++ [call]) key l := by
  rw [listeners_after h]
  cases call with
  | subscribe query l' =>
    rw [stays_concat_subscribe, ← hstays key l, Call.key, Call.change]
    split
    · next heq => rw [mem_addListener, heq]; simp [or_comm]
    · next hne => simp [hne]
  | unsubscribe query l' =>
    rw [stays_concat_unsubscribe, ← hstays key l, Call.key, Call.change]
    split
    · next heq => simp [heq]
    · next hne => simp [hne]

/-- Whatever calls there were, those listen to a key who stay there. -/
theorem mem_listeners_run (htidy : s.registry.subscriptions.Tidy)
    (hnobody : ∀ key, s.listeners key = []) (calls : List Call) (key : String) (l : ListenerId) :
    l ∈ (s.run calls).listeners key ↔ Stays calls key l := by
  induction calls using List.reverseRecOn generalizing key l with
  | nil => simp [run, hnobody, not_stays_nil]
  | append_singleton calls call ih =>
    rw [run, List.foldl_concat]
    exact mem_listeners_after (tidy_run htidy calls) ih call key l

private theorem listeners_opened (registry : Registry) (m : Membership) (holders : Nat)
    (key : String) :
    (opened registry m holders).listeners key = [] := by
  have hnone : (∅ : Subscriptions)[key]? = none := Std.ExtTreeMap.getElem?_empty
  exact (Subscriptions.of_eq _ key).trans (congrArg (·.getD []) hnone)

private theorem sound_opened (registry : Registry) (m : Membership) (holders : Nat) :
    (opened registry m holders).Sound := by
  have hnone : ∀ key : String, (∅ : Subscriptions)[key]? = none := fun _ =>
    Std.ExtTreeMap.getElem?_empty
  have hnobody := listeners_opened registry m holders
  refine ⟨fun key listeners hl => ?_, ⟨_, holders, rfl, fun key => ?_⟩, fun key => ?_,
    fun key => ?_⟩
  · cases (hnone key).symm.trans hl
  · exact iff_of_false Std.ExtTreeSet.not_mem_empty (not_not_intro (hnobody key))
  · exact List.isChain_singleton _
  · rw [if_pos (hnobody key)]
    rfl

/-- Whatever calls come to a registry to which nobody listens yet: the keys that it watches are
those that anybody listens to, and whoever came to a key and has not gone since listens to it; no
key is there without a listener or has one twice; what the backend is told about a key alternates,
from watching on; and every further call changes who listens to its own key and to no other, and
has the backend told to watch a key just if its listeners become one from none, and to watch it no
more just if they become none from one. -/
theorem watched_iff_listeners (registry : Registry) (m : Membership) (holders : Nat)
    (calls : List Call) :
    let s := (opened registry m holders).run calls
    (∀ key, key ∈ s.registry.membership.watched ↔ s.registry.subscriptions.of key ≠ []) ∧
      (∀ key l, l ∈ s.registry.subscriptions.of key ↔ Stays calls key l) ∧
      (∀ (key : String) (listeners : List ListenerId),
        s.registry.subscriptions[key]? = some listeners → listeners ≠ [] ∧ listeners.Nodup) ∧
      (∀ key, (.unwatch :: s.ordersOf key).IsChain (· ≠ ·)) ∧
      ∀ call key,
        (s.after call).registry.subscriptions.of key =
          (if call.key = key then call.change (s.registry.subscriptions.of key)
            else s.registry.subscriptions.of key) ∧
        (s.after call).ordersOf key = s.ordersOf key ++
          Order.ofCounts (s.registry.subscriptions.of key).length
            ((s.after call).registry.subscriptions.of key).length := by
  intro s
  have hopened := sound_opened registry m holders
  have hsound : s.Sound := hopened.run calls
  refine ⟨fun key => ?_, ?_, hsound.tidy, hsound.chain, fun call key => ⟨?_, ?_⟩⟩
  · obtain ⟨m', holders', hm, hwatched⟩ := hsound.watching
    rw [Registry.membership, Registry.membership?, hm]
    exact hwatched key
  · exact mem_listeners_run hopened.tidy (listeners_opened registry m holders) calls
  · refine (listeners_after hsound.tidy call key).trans ?_
    split
    · next heq => rw [heq]; rfl
    · rfl
  · exact ordersOf_after hsound.tidy call key

/-- Two listeners come to a key, one of them twice, and the key is watched; both go, one of them
twice, and it is watched no more. -/
theorem watched_until_both_go :
    let query : Address := { path := some "g/s" }
    let come : List Call := [.subscribe query "a", .subscribe query "b", .subscribe query "a"]
    let go : List Call := [.unsubscribe query "a", .unsubscribe query "a", .unsubscribe query "b"]
    let start := opened {} { session := 1 } 1
    "/g/s" ∈ (start.run come).registry.membership.watched ∧
      "/g/s" ∉ (start.run (come ++ go)).registry.membership.watched ∧
      (start.run (come ++ go)).ordersOf "/g/s" = [.watch, .unwatch] := by
  intro query come go start
  have hkey : query.subscriptionKey = "/g/s" := by decide +kernel
  obtain ⟨hwatched, hstays, -⟩ := watched_iff_listeners {} { session := 1 } 1 come
  obtain ⟨hwatched', hstays', -⟩ := watched_iff_listeners {} { session := 1 } 1 (come ++ go)
  refine ⟨(hwatched _).mpr (List.ne_nil_of_mem ((hstays _ "a").mpr ?_)), ?_, ?_⟩
  · exact ⟨[_, _], query, [], rfl, hkey, fun _ hm => by cases hm⟩
  · rw [hwatched', not_not]
    refine List.eq_nil_iff_forall_not_mem.mpr fun l hm => ?_
    have hgone := (hstays' _ l).mp hm
    rw [show come ++ go = [] ++ [.subscribe query "a"] ++ [.subscribe query "b"] ++
      [.subscribe query "a"] ++ [.unsubscribe query "a"] ++ [.unsubscribe query "a"] ++
      [.unsubscribe query "b"] from rfl] at hgone
    simp only [stays_concat_subscribe, stays_concat_unsubscribe, hkey, true_and] at hgone
    obtain ⟨⟨⟨hcame | hcame | hcame | hcame, -⟩, hnota⟩, hnotb⟩ := hgone
    · exact hnota hcame
    · exact hnotb hcame
    · exact hnota hcame
    · exact not_stays_nil _ _ hcame
  · decide +kernel

end Scene

end Listening

end Switchboard
