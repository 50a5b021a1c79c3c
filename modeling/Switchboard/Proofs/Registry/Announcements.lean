import Mathlib.Data.List.Induction
import Mathlib.Data.Set.Basic
import Switchboard.Proofs.Registry.Paths

/-!
# What the log tells of the tree

Whoever reads the log from its start and takes over what it tells of the data of each path has the
data of the tree. And of the names right below a path every move tells just if it changes them: a
node that comes is told to the path above it, and so is one that goes, with its subtree or with its
session.
-/

namespace Switchboard

namespace TreeEvent

/-- What events tell of the data of a path, in order. -/
def tellings (path : String) (events : List TreeEvent) : List (Option String) :=
  events.filterMap fun
    | .dataChanged key data => if key = path then some data else none
    | _ => none

/-- Takes over what an event tells of the data of a path. -/
def record (data : Std.ExtTreeMap String String) : TreeEvent → Std.ExtTreeMap String String
  | .dataChanged path (some text) => data.insert path text
  | .dataChanged path none => data.erase path
  | _ => data

/-- The data of all paths as events tell it. -/
def recalled (events : List TreeEvent) : Std.ExtTreeMap String String := events.foldl record ∅

variable {path : String} {events : List TreeEvent}

/-- What is told of a path is told event by event. -/
theorem tellings_append (path : String) (events more : List TreeEvent) :
    tellings path (events ++ more) = tellings path events ++ tellings path more :=
  List.filterMap_append

/-- Events that are about no data tell nothing of it. -/
theorem tellings_eq_nil (h : ∀ event ∈ events, ∀ data, event ≠ .dataChanged path data) :
    tellings path events = [] := by
  refine List.filterMap_eq_nil_iff.mpr fun event hm => ?_
  split
  · next key data =>
    rw [if_neg]
    rintro rfl
    exact h _ hm data rfl
  · rfl

/-- What is told of a path is what an event says of its data. -/
theorem mem_tellings_iff {data : Option String} :
    data ∈ tellings path events ↔ .dataChanged path data ∈ events := by
  simp only [tellings, List.mem_filterMap]
  constructor
  · rintro ⟨event, hm, hsome⟩
    split at hsome
    · split at hsome
      · next heq =>
        cases hsome
        exact heq ▸ hm
      · cases hsome
    · cases hsome
  · exact fun hm => ⟨_, hm, if_pos rfl⟩

/-- What is told of a path last is what its data is taken to be. -/
theorem getElem?_recalled (path : String) (events : List TreeEvent) :
    (recalled events)[path]? = (tellings path events).getLast?.join := by
  induction events using List.reverseRecOn with
  | nil => simp [recalled, tellings]
  | append_singleton events event ih =>
    have hlast : recalled (events ++ [event]) = record (recalled events) event := by
      simp [recalled, List.foldl_append]
    rw [hlast, tellings_append]
    cases event with
    | childrenChanged key => simpa [record, tellings] using ih
    | session id state => simpa [record, tellings] using ih
    | dataChanged key data =>
      by_cases hkey : key = path
      · subst hkey
        cases data <;> simp [record, tellings]
      · have hcompare : compare key path ≠ .eq := mt Std.LawfulEqCmp.compare_eq_iff_eq.mp hkey
        cases data with
        | none =>
          rw [record, Std.ExtTreeMap.getElem?_erase, if_neg hcompare]
          simpa [tellings, hkey] using ih
        | some text =>
          rw [record, Std.ExtTreeMap.getElem?_insert, if_neg hcompare]
          simpa [tellings, hkey] using ih

end TreeEvent

open TreeEvent (tellings)

namespace Tree

variable {t t' : Tree} {path key name : String}

/-! ### What is told of data -/

/-- Putting a node tells the data of its path, unless the path has it already. -/
theorem tellings_putNode (t : Tree) (path : String) (data : Option String)
    (owner : Option SessionId) (key : String) : tellings key (t.putNode path data owner).2 =
      if key = path ∧ t.content? path ≠ some data then [data] else [] := by
  unfold putNode content?
  cases t[path]? with
  | some node =>
    by_cases hdata : node.data = data
    · simp [tellings, hdata]
    · by_cases hkey : path = key
      · subst hkey
        simp [tellings, hdata]
      · simp [tellings, hdata, hkey, Ne.symm hkey]
  | none =>
    by_cases hkey : path = key
    · subst hkey
      cases Key.split? path <;> simp [tellings]
    · cases Key.split? path <;> simp [tellings, hkey, Ne.symm hkey]

/-- A put tells just what it tells of its own path. -/
theorem tellings_put (t : Tree) (path : String) (data : Option String) (owner : Option SessionId)
    (key : String) : tellings key (t.put path data owner).2 =
      if key = path ∧ t.content? path ≠ some data then [data] else [] := by
  have hway : tellings key (ensureWay path (waypoints "" (segments path)) t).2 = [] := by
    refine TreeEvent.tellings_eq_nil fun event hm data => ?_
    obtain ⟨here, -, -, -, rfl⟩ := mem_told_ensureWay.mp hm
    simp
  have hsame : (ensureWay path (waypoints "" (segments path)) t).1.content? path =
      t.content? path := by
    rw [content?, getElem?_ensureWay_eq, if_neg fun h => h.2.1 rfl, content?]
  rw [put, TreeEvent.tellings_append, hway, List.nil_append, tellings_putNode, hsame]

/-- What a put tells last of the data of a path is what the path has then; what it tells nothing of
stays as it was. -/
theorem data?_put (t : Tree) (path : String) (data : Option String) (owner : Option SessionId)
    (key : String) : (t.put path data owner).1.data? key =
      (tellings key (t.put path data owner).2).getLast?.getD (t.data? key) := by
  rw [tellings_put]
  by_cases hkey : key = path
  · subst hkey
    rw [data?, getElem?_put_self]
    cases hnode : t[key]? with
    | none => simp [content?, hnode]
    | some node =>
      by_cases hdata : node.data = data <;> simp [content?, data?, hnode, hdata]
  · rw [if_neg fun h => hkey h.1, data?]
    rcases t.getElem?_put_of_ne hkey data owner with hsame | ⟨hnone, hnew, -⟩
    · rw [hsame]
      rfl
    · rw [hnew]
      simp [data?, hnone]

/-- A removal tells that a path has no data any more just if it removes its node. -/
theorem getLast?_tellings_removeWhere (t : Tree) (doomed : String → TreeNode → Bool)
    (key : String) : (tellings key (t.removeWhere doomed).2).getLast? =
      if t[key]?.any (doomed key) then some none else none := by
  have hmem : ∀ data, data ∈ tellings key (t.removeWhere doomed).2 ↔
      data = none ∧ t[key]?.any (doomed key) = true := by
    intro data
    have hevent : ∀ here : String, .dataChanged key data ∈ removalEvents here ↔
        here = key ∧ data = none := by
      intro here
      unfold removalEvents
      split <;> simp [eq_comm]
    simp only [TreeEvent.mem_tellings_iff, removeWhere, List.mem_flatMap, List.mem_filter, hevent,
      Option.any_eq_true]
    constructor
    · rintro ⟨⟨here, node⟩, ⟨hm, hdoomed⟩, rfl, rfl⟩
      exact ⟨rfl, node, Std.ExtTreeMap.mem_toList_iff_getElem?_eq_some.mp hm, hdoomed⟩
    · rintro ⟨rfl, node, hnode, hdoomed⟩
      exact ⟨(key, node), ⟨Std.ExtTreeMap.mem_toList_iff_getElem?_eq_some.mpr hnode, hdoomed⟩,
        rfl, rfl⟩
  cases hlast : (tellings key (t.removeWhere doomed).2).getLast? with
  | none =>
    rw [if_neg]
    intro hdoomed
    have hnone := (hmem none).mpr ⟨rfl, hdoomed⟩
    rw [List.getLast?_eq_none_iff.mp hlast] at hnone
    cases hnone
  | some data =>
    obtain ⟨rfl, hdoomed⟩ := (hmem data).mp (List.mem_of_getLast? hlast)
    rw [if_pos hdoomed]

/-- What a removal tells of the data of a path is what the path has then; what it tells nothing of
stays as it was. -/
theorem data?_removeWhere (t : Tree) (doomed : String → TreeNode → Bool) (key : String) :
    (t.removeWhere doomed).1.data? key =
      (tellings key (t.removeWhere doomed).2).getLast?.getD (t.data? key) := by
  rw [getLast?_tellings_removeWhere, data?, getElem?_removeWhere]
  cases hnode : t[key]? with
  | none => simp [data?, hnode]
  | some node =>
    rw [Option.filter_some]
    cases hdoomed : doomed key node <;> simp [data?, hnode, hdoomed]

/-! ### What is told of names -/

/-- The names of the nodes right below a path. -/
def names (t : Tree) (path : String) : Set String := {name | ∃ data, (name, data) ∈ t.children path}

/-- Whether the node at a path came or went from one tree to another. -/
def CameOrWent (t t' : Tree) (key : String) : Prop := t[key]?.isSome ≠ t'[key]?.isSome

/-- Whether all nodes have canonical paths. -/
def IsCanonical (t : Tree) : Prop := ∀ key, t[key]?.isSome = true → Key.IsCanonical key

private theorem mem_names_iff :
    name ∈ t.names path ↔ '/' ∉ name.toList ∧ t[childLead path ++ name]?.isSome = true := by
  simp only [names, Set.mem_ofPred_eq, mem_children_iff, exists_and_left,
    ← Option.isSome_iff_exists, content?, Option.isSome_map]

/-- The names right below a path differ just if a node right below it came or went. -/
theorem names_ne_iff (hpath : Key.IsCanonical path)
    (hkeys : ∀ key, CameOrWent t t' key → Key.IsCanonical key) :
    t.names path ≠ t'.names path ↔ ∃ key, CameOrWent t t' key ∧ above key = path := by
  have hsame : t.names path = t'.names path ↔ ∀ name, '/' ∉ name.toList →
      ¬ CameOrWent t t' (childLead path ++ name) := by
    rw [Set.ext_iff]
    refine forall_congr' fun name => ?_
    rw [mem_names_iff, mem_names_iff, and_congr_right_iff, CameOrWent, not_not, ← Bool.eq_iff_iff]
  rw [Ne, hsame]
  constructor
  · intro h
    obtain ⟨name, h⟩ := not_forall.mp h
    obtain ⟨hname, h⟩ := Classical.not_imp.mp h
    have hkey := not_not.mp h
    exact ⟨_, hkey, (hpath.above_eq_iff (hkeys _ hkey)).mpr ⟨name, hname, rfl⟩⟩
  · rintro ⟨key, hkey, habove⟩ h
    obtain ⟨name, hname, rfl⟩ := (hpath.above_eq_iff (hkeys key hkey)).mp habove
    exact h name hname hkey

/-- The nodes of a tree after a put are those that there were, that of its path, and those on the
way to it. -/
theorem isSome_put (t : Tree) (path : String) (data : Option String) (owner : Option SessionId)
    (key : String) : (t.put path data owner).1[key]?.isSome = true ↔
      t[key]?.isSome = true ∨ key = path ∨ key ∈ waypoints "" (segments path) := by
  by_cases hkey : key = path
  · subst hkey
    simp [getElem?_put_self]
  · have hput : (t.put path data owner).1[key]? =
        (ensureWay path (waypoints "" (segments path)) t).1[key]? := by
      simp only [put, putNode]
      split <;> simp [Std.ExtTreeMap.getElem?_insert, Ne.symm hkey]
    rw [hput, getElem?_ensureWay_eq]
    by_cases hway : key ∈ waypoints "" (segments path)
    · cases hnode : t[key]? <;> simp [hway, hkey]
    · simp [hway, hkey]

private theorem IsCanonical.put (h : IsCanonical t) (hpath : Key.IsCanonical path)
    (data : Option String)
    (owner : Option SessionId) : IsCanonical (t.put path data owner).1 := by
  intro key hkey
  rcases (t.isSome_put path data owner key).mp hkey with hold | rfl | hway
  · exact h key hold
  · exact hpath
  · exact isCanonical_of_mem_way hway

private theorem IsCanonical.removeWhere (h : IsCanonical t) (doomed : String → TreeNode → Bool) :
    IsCanonical (t.removeWhere doomed).1 := by
  intro key hkey
  rw [getElem?_removeWhere] at hkey
  refine h key ?_
  cases hnode : t[key]? <;> simp_all

private theorem cameOrWent_put_iff {data : Option String} {owner : Option SessionId} :
    CameOrWent t (t.put path data owner).1 key ↔
      t[key]? = none ∧ (key = path ∨ key ∈ waypoints "" (segments path)) := by
  have hiff := t.isSome_put path data owner key
  rw [CameOrWent, Ne, Bool.eq_iff_iff, hiff]
  cases t[key]? <;> simp [-not_or, eq_comm]

private theorem cameOrWent_removeWhere_iff {doomed : String → TreeNode → Bool} :
    CameOrWent t (t.removeWhere doomed).1 key ↔ t[key]?.any (doomed key) = true := by
  rw [CameOrWent, getElem?_removeWhere]
  cases hnode : t[key]? with
  | none => simp
  | some node => cases hdoomed : doomed key node <;> simp [hdoomed]

/-- A put at a canonical path tells a path just of the nodes that come right below it. -/
theorem childrenChanged_mem_put_iff (hpath : Key.IsCanonical path) {data : Option String}
    {owner : Option SessionId} {parent : String} :
    .childrenChanged parent ∈ (t.put path data owner).2 ↔
      ∃ key, CameOrWent t (t.put path data owner).1 key ∧ above key = parent := by
  obtain ⟨name, -, hsplit, -⟩ := hpath.split?_eq
  have hnode : ∀ t : Tree, .childrenChanged parent ∈ (t.putNode path data owner).2 ↔
      t[path]? = none ∧ above path = parent := by
    intro t
    unfold putNode
    cases hnode : t[path]? with
    | some node => simp only [reduceCtorEq, false_and, iff_false]; split <;> simp
    | none => simp [hsplit, eq_comm]
  have hsame : (ensureWay path (waypoints "" (segments path)) t).1[path]? = t[path]? := by
    rw [getElem?_ensureWay_eq, if_neg fun h => h.2.1 rfl]
  have htold : .childrenChanged parent ∈ (t.put path data owner).2 ↔
      (∃ key, key ∈ waypoints "" (segments path) ∧ key ≠ path ∧ t[key]? = none ∧
        parent = above key) ∨ t[path]? = none ∧ above path = parent := by
    simp only [put, List.mem_append, mem_told_ensureWay, hnode, hsame,
      TreeEvent.childrenChanged.injEq]
  simp only [htold, cameOrWent_put_iff]
  constructor
  · rintro (⟨key, hway, -, hnone, rfl⟩ | ⟨hnone, rfl⟩)
    · exact ⟨key, ⟨hnone, .inr hway⟩, rfl⟩
    · exact ⟨path, ⟨hnone, .inl rfl⟩, rfl⟩
  · rintro ⟨key, ⟨hnone, hkey⟩, rfl⟩
    by_cases hself : key = path
    · subst hself
      exact .inr ⟨hnone, rfl⟩
    · exact .inl ⟨key, hkey.resolve_left hself, hself, hnone, rfl⟩

/-- A removal from a tree of canonical paths tells a path just of the nodes that go right below
it. -/
theorem childrenChanged_mem_removeWhere_iff (h : IsCanonical t)
    {doomed : String → TreeNode → Bool} {parent : String} :
    .childrenChanged parent ∈ (t.removeWhere doomed).2 ↔
      ∃ key, CameOrWent t (t.removeWhere doomed).1 key ∧ above key = parent := by
  have hevent : ∀ key : String, t[key]?.isSome = true →
      (.childrenChanged parent ∈ removalEvents key ↔ above key = parent) := by
    intro key hkey
    obtain ⟨name, -, hsplit, -⟩ := (h key hkey).split?_eq
    simp [removalEvents, hsplit, eq_comm]
  have htold : .childrenChanged parent ∈ (t.removeWhere doomed).2 ↔ ∃ entry : String × TreeNode,
      (entry ∈ t.toList ∧ doomed entry.1 entry.2 = true) ∧
        .childrenChanged parent ∈ removalEvents entry.1 := by
    simp only [removeWhere, List.mem_flatMap, List.mem_filter]
  simp only [htold, cameOrWent_removeWhere_iff, Option.any_eq_true]
  constructor
  · rintro ⟨⟨key, node⟩, ⟨hm, hdoomed⟩, htold⟩
    have hnode := Std.ExtTreeMap.mem_toList_iff_getElem?_eq_some.mp hm
    exact ⟨key, ⟨node, hnode, hdoomed⟩, (hevent key (by simp [hnode])).mp htold⟩
  · rintro ⟨key, ⟨node, hnode, hdoomed⟩, habove⟩
    exact ⟨(key, node), ⟨Std.ExtTreeMap.mem_toList_iff_getElem?_eq_some.mpr hnode, hdoomed⟩,
      (hevent key (by simp [hnode])).mpr habove⟩

end Tree

namespace Coordinator

variable {c c' c'' : Coordinator} {events more : List TreeEvent}

/-- Whether a move is about a canonical path, if it is about one at all. -/
def Move.IsCanonical : Move → Prop
  | .put _ path _ _ | .delete _ path => Key.IsCanonical path
  | _ => True

/-- Events are what was told from one coordinator to another, and tell it all: the data that paths
came to have, and the paths below which a node came or went. -/
structure Announces (c c' : Coordinator) (events : List TreeEvent) : Prop where
  log_eq : c'.log = c.log ++ events.toArray
  data?_eq : ∀ path, c'.tree.data? path = (tellings path events).getLast?.getD (c.tree.data? path)
  told_iff : ∀ path, .childrenChanged path ∈ events ↔
    ∃ key, Tree.CameOrWent c.tree c'.tree key ∧ Tree.above key = path

/-- Nothing is told where nothing happened to the tree. -/
theorem Announces.of_eq (htree : c'.tree = c.tree) (hlog : c'.log = c.log) :
    c.Announces c' [] where
  log_eq := by simp [hlog]
  data?_eq := by simp [htree, tellings]
  told_iff := by simp [htree, Tree.CameOrWent]

/-- Events about sessions tell nothing of a tree, which stays as it is. -/
theorem Announces.transition (h : c.Announces c' events) (id : SessionId) (state : SessionState) :
    ∃ more, c.Announces (c'.transition id state) more := by
  rcases c'.transition_cases id state with ⟨before, -, -, ht⟩ | ⟨-, ht⟩
  · rw [ht]
    have hsilent : ∀ path, tellings path (events ++ [.session id state]) = tellings path events :=
      fun path => by simp [tellings]
    refine ⟨events ++ [.session id state], ⟨?_, fun path => ?_, fun path => ?_⟩⟩
    · simp [publish, h.log_eq]
    · rw [hsilent]
      exact h.data?_eq path
    · rw [List.mem_append, List.mem_singleton, or_iff_left (by simp)]
      exact h.told_iff path
  · rw [ht]
    exact ⟨events, h⟩

/-- Every put tells all that it does to the tree. -/
theorem announces_put {path : String} (hpath : Key.IsCanonical path) (session : SessionId)
    (data : Option String) (ephemeral : Bool) :
    ∃ events, c.Announces (c.put session path data ephemeral).2 events := by
  rcases c.put_cases session path data ephemeral with ⟨-, hput⟩ | ⟨-, f, hput⟩
  · rw [hput]
    exact ⟨_, rfl, c.tree.data?_put path data _, fun _ => Tree.childrenChanged_mem_put_iff hpath⟩
  · rw [hput]
    exact ⟨[], .of_eq rfl rfl⟩

/-- Every removal tells all that it does to the tree. -/
theorem announces_removeWhere (h : c.tree.IsCanonical) (doomed : String → TreeNode → Bool) :
    c.Announces (c.removeWhere doomed).2 (c.tree.removeWhere doomed).2 :=
  ⟨rfl, c.tree.data?_removeWhere doomed, fun _ => Tree.childrenChanged_mem_removeWhere_iff h⟩

/-- Every move tells all that it does to the tree. -/
theorem announces_after (h : c.tree.IsCanonical) {move : Move} (hmove : move.IsCanonical) :
    ∃ events, c.Announces (c.after move) events := by
  cases move with
  | openSession => exact ⟨[], .of_eq rfl rfl⟩
  | put session path data ephemeral => exact announces_put hmove session data ephemeral
  | delete session path =>
    rcases c.delete_cases session path with ⟨-, removed, hd⟩ | ⟨-, f, hd⟩
    · simp only [after, hd]
      exact ⟨_, announces_removeWhere h _⟩
    · simp only [after, hd]
      exact ⟨[], .of_eq rfl rfl⟩
  | disconnect id => exact (Announces.of_eq rfl rfl).transition id _
  | reconnect id => exact (Announces.of_eq rfl rfl).transition id _
  | expire id => exact (announces_removeWhere h _).transition id _

/-- Moves about canonical paths leave a tree of canonical paths. -/
theorem isCanonical_after (h : c.tree.IsCanonical) {move : Move} (hmove : move.IsCanonical) :
    (c.after move).tree.IsCanonical := by
  cases move with
  | openSession => exact h
  | put session path data ephemeral =>
    rcases c.put_cases session path data ephemeral with ⟨-, hput⟩ | ⟨-, f, hput⟩
    · simp only [after, hput]
      exact h.put hmove data _
    · simp only [after, hput]
      exact h
  | delete session path =>
    rcases c.delete_cases session path with ⟨-, removed, hd⟩ | ⟨-, f, hd⟩
    · simp only [after, hd]
      exact h.removeWhere _
    · simp only [after, hd]
      exact h
  | disconnect id =>
    simp only [after, disconnect, tree_transition]
    exact h
  | reconnect id =>
    simp only [after, reconnect, tree_transition]
    exact h
  | expire id =>
    simp only [after, expire, tree_transition]
    exact h.removeWhere _

/-- What a log tells from its start is the data of the tree. -/
def IsTold (c : Coordinator) : Prop :=
  ∀ path, c.tree.data? path = (tellings path c.log.toList).getLast?.join

private theorem IsTold.announces (h : c.IsTold) (ha : c.Announces c' events) : c'.IsTold := by
  intro path
  rw [ha.data?_eq, h path, ha.log_eq, Array.toList_append, TreeEvent.tellings_append,
    List.getLast?_append]
  cases (tellings path events).getLast? <;> rfl

/-- A run of moves about canonical paths leaves a tree of canonical paths, with the data that the
log tells. -/
theorem run_isCanonical_and_isTold {moves : List Move} (hmoves : ∀ move ∈ moves, move.IsCanonical)
    (h : c.tree.IsCanonical) (htold : c.IsTold) :
    (moves.foldl after c).tree.IsCanonical ∧ (moves.foldl after c).IsTold := by
  induction moves generalizing c with
  | nil => exact ⟨h, htold⟩
  | cons move rest ih =>
    have hmove := hmoves move List.mem_cons_self
    obtain ⟨events, ha⟩ := announces_after h hmove
    exact ih (fun m hm => hmoves m (List.mem_cons_of_mem _ hm)) (isCanonical_after h hmove)
      (htold.announces ha)

/-- After any run of moves about canonical paths, whoever takes over what the log tells has the data
of the tree; and any further move tells a canonical path that the nodes right below it changed just
if their names did. -/
theorem log_tells_tree {moves : List Move} (hmoves : ∀ move ∈ moves, move.IsCanonical)
    {move : Move} (hmove : move.IsCanonical) :
    let c := moves.foldl after {}
    (∀ path, (TreeEvent.recalled c.log.toList)[path]? = c.tree.data? path) ∧
      ∃ events : List TreeEvent, (c.after move).log = c.log ++ events.toArray ∧
        ∀ path, Key.IsCanonical path → (.childrenChanged path ∈ events ↔
          c.tree.names path ≠ (c.after move).tree.names path) := by
  intro c
  have hempty : ({} : Coordinator).tree.IsCanonical := by simp [Tree.IsCanonical]
  have hnothing : ({} : Coordinator).IsTold := by simp [IsTold, Tree.data?, tellings]
  obtain ⟨hcanonical, htold⟩ := run_isCanonical_and_isTold hmoves hempty hnothing
  obtain ⟨events, ha⟩ := announces_after hcanonical hmove
  refine ⟨fun path => ?_, events, ha.log_eq, fun path hpath => ?_⟩
  · rw [TreeEvent.getElem?_recalled, htold path]
  · rw [ha.told_iff, Tree.names_ne_iff hpath]
    intro key hkey
    by_cases hold : c.tree[key]?.isSome = true
    · exact hcanonical key hold
    · refine isCanonical_after hcanonical hmove key ?_
      rw [Tree.CameOrWent, Bool.eq_false_iff.mpr hold] at hkey
      exact Bool.eq_true_of_not_eq_false hkey.symm

/-- A node that goes with its session is told to the path above it. The node below it stays without
it, and what is told of its own path is its data. -/
theorem log_tells_tree_of_orphan :
    let moves : List Move := [.openSession, .put 1 "/a/b" (some "x") true,
      .put 1 "/a/b/c" none false, .put 1 "/a/b" (some "y") true]
    let c := moves.foldl after {}
    (∀ move ∈ moves, move.IsCanonical) ∧ (Move.expire 1).IsCanonical ∧
      (TreeEvent.recalled c.log.toList)["/a/b"]? = some "y" ∧
      ∃ events : List TreeEvent, (c.after (.expire 1)).log = c.log ++ events.toArray ∧
        .childrenChanged "/a" ∈ events ∧ .childrenChanged "/a/b" ∉ events := by
  intro moves c
  have hab : Key.IsCanonical "/a/b" := ⟨["a", "b"], by decide +kernel, by decide +kernel⟩
  have habc : Key.IsCanonical "/a/b/c" := ⟨["a", "b", "c"], by decide +kernel, by decide +kernel⟩
  have hexpire : (Move.expire 1).IsCanonical := trivial
  have hmoves : ∀ move ∈ moves, move.IsCanonical := by
    simp only [moves, List.forall_mem_cons, Move.IsCanonical]
    exact ⟨trivial, hab, habc, hab, by simp⟩
  obtain ⟨hrecall, events, hlog, htold⟩ := log_tells_tree hmoves hexpire
  have hdata : c.tree.data? "/a/b" = some "y" := by decide +kernel
  have habove : c.tree.children "/a" = [("b", some "y")] ∧
      (c.after (.expire 1)).tree.children "/a" = [] := by decide +kernel
  have hbelow : c.tree.children "/a/b" = (c.after (.expire 1)).tree.children "/a/b" := by
    decide +kernel
  refine ⟨hmoves, trivial, (hrecall "/a/b").trans hdata, events, hlog, ?_, ?_⟩
  · rw [htold "/a" ⟨["a"], by decide +kernel, by decide +kernel⟩, Tree.names, Tree.names, habove.1,
      habove.2]
    simp [Set.ext_iff]
  · rw [htold "/a/b" hab, Ne, not_not, Tree.names, hbelow]
    rfl

end Coordinator

end Switchboard
