import Switchboard.Proofs.Registry.Scans
import Switchboard.Proofs.Registry.Sessions

/-!
# Nodes right below a path

A node right below the key of a service stands at the key and a name without slashes. Whenever such
a node comes or goes, the key is told; when only its data changes, by a put at its own path, the key
is not.
-/

namespace Switchboard

/-! ### Children of a service -/

namespace Key

/-- A path right below another is split into the other, without the slashes at its end, and its
name. -/
theorem split?_childLead (key : String) {name : String} (h : '/' ∉ name.toList) :
    split? (Tree.childLead key ++ name) =
      some (if (Text.trimEndBy (· == '/') key.toList).isEmpty then "/"
        else String.ofList (Text.trimEndBy (· == '/') key.toList), name) := by
  have hname : '/' ∉ name.toList.reverse := by simpa using h
  have hreverse : (Tree.childLead key ++ name).toList.reverse =
      name.toList.reverse ++ '/' :: (Text.trimEndBy (· == '/') key.toList).reverse := by
    simp [Tree.childLead, String.toList_append]
  simp only [split?, Text.cutAtLast, hreverse, Text.cutAt_append hname]
  simp

end Key

namespace Address

/-- No slash stands at the end of the key of a service, unless it is the root. -/
theorem trimEndBy_serviceKey (a : Address) :
    Text.trimEndBy (· == '/') a.serviceKey.toList =
      if a.serviceKey = "/" then [] else a.serviceKey.toList := by
  have htrim : ∀ s : List Char, Text.trimEndBy (· == '/') ('/' :: Text.trimEndBy (· == '/') s) =
      if Text.trimEndBy (· == '/') s = [] then [] else '/' :: Text.trimEndBy (· == '/') s := by
    intro s
    have hplain := List.head?_dropWhile_not (· == '/') s.reverse
    simp only [Text.trimEndBy, List.reverse_cons, List.reverse_reverse, List.reverse_eq_nil_iff]
    cases hrest : s.reverse.dropWhile (· == '/') with
    | nil => rfl
    | cons c rest =>
      have hc : (c == '/') = false := by simpa [hrest] using hplain
      simp [hc]
  simp only [← String.toList_inj, serviceKey, Text.trimBy, String.toList_ofList, htrim]
  simp

/-- A path right below the key of a service is split into the key and its name. -/
theorem split?_serviceKey (a : Address) {name : String} (h : '/' ∉ name.toList) :
    Key.split? (Tree.childLead a.serviceKey ++ name) = some (a.serviceKey, name) := by
  have hne : a.serviceKey.toList ≠ [] := by simp [serviceKey]
  rw [Key.split?_childLead _ h, a.trimEndBy_serviceKey]
  split
  · next hroot => simp [hroot]
  · simp [hne]

/-- The key of a service and a step below it are joined to a path right below the key. -/
theorem join_serviceKey (a : Address) {child : String} (h : child ≠ "") :
    Key.join a.serviceKey child = Tree.childLead a.serviceKey ++ child := by
  have htrim := a.trimEndBy_serviceKey
  simp only [Key.join, Tree.childLead, htrim, String.isEmpty_iff, if_neg h]
  by_cases hroot : a.serviceKey = "/"
  · simp [hroot]
  · rw [if_neg hroot] at htrim
    have hlast : a.serviceKey.toList.getLast? ≠ some '/' := by
      rw [← htrim]
      exact Text.getLast?_trimEndBy_ne '/' _
    rw [if_neg hlast, if_neg hroot, String.ofList_toList]

end Address

/-! ### What is told of children -/

namespace Tree

variable {path child key name : String}

/-- A put that makes a node come tells the path above it; any other put changes nothing but what
stands at its own path. -/
theorem told_put (hsplit : Key.split? child = some (key, name)) (t : Tree) (path : String)
    (data : Option String) (owner : Option SessionId) :
    .childrenChanged key ∈ (t.put path data owner).2 ∨
      (if child = path then (t.content? child).isSome = true
        else (t.put path data owner).1.content? child = t.content? child) := by
  by_cases hpath : child = path
  · subst hpath
    rw [if_pos rfl]
    cases hchild : t[child]? with
    | some node => exact .inr (by simp [content?, hchild])
    | none =>
      have hway : (ensureWay child (waypoints "" (segments child)) t).1[child]? = none := by
        rcases getElem?_ensureWay child (waypoints "" (segments child)) t child with
          h | ⟨-, hne, -, -⟩
        · exact h.trans hchild
        · exact absurd rfl hne
      refine .inl (List.mem_append_right _ ?_)
      simp [hway, hsplit]
  · rw [if_neg hpath]
    refine (t.getElem?_put_of_ne hpath data owner).symm.imp ?_ fun hsame => ?_
    · rintro ⟨-, -, htold⟩
      simpa [above, hsplit] using htold
    · rw [content?, hsame, content?]

/-- A removal that makes a node go tells the path above it. -/
theorem told_removeWhere (hsplit : Key.split? child = some (key, name)) (t : Tree)
    (doomed : String → TreeNode → Bool) :
    .childrenChanged key ∈ (t.removeWhere doomed).2 ∨
      (t.removeWhere doomed).1.content? child = t.content? child := by
  simp only [content?, getElem?_removeWhere]
  cases hchild : t[child]? with
  | none => exact .inr rfl
  | some node =>
    cases hdoomed : doomed child node with
    | false => exact .inr (by rw [Option.filter_some, hdoomed]; rfl)
    | true =>
      refine .inl (List.mem_flatMap.mpr ⟨(child, node), ?_, ?_⟩)
      · exact List.mem_filter.mpr
          ⟨Std.ExtTreeMap.mem_toList_iff_getElem?_eq_some.mpr hchild, hdoomed⟩
      · simp [removalEvents, hsplit]

end Tree

namespace Coordinator

/-- The path whose node a move gives other data, if it does. -/
def replacedBy (c : Coordinator) : Move → List String
  | .put session path data _ =>
    if c.sessionState? session = some .connected ∧ (c.tree.content? path).any (· != data) then
      [path]
    else []
  | _ => []

/-- One coordinator came from another by telling more, an event among it. -/
def TellsOf (c c' : Coordinator) (event : TreeEvent) : Prop :=
  ∃ events : List TreeEvent, c'.log = c.log ++ events.toArray ∧ event ∈ events

/-- What is told behind a position is to be read. -/
theorem TellsOf.isUnread {c c' : Coordinator} {event : TreeEvent} (h : c.TellsOf c' event)
    {position : Nat} (hp : position ≤ c.log.size) : c'.IsUnread position event := by
  obtain ⟨events, hlog, hm⟩ := h
  obtain ⟨i, hi, hget⟩ := List.mem_iff_getElem.mp hm
  refine ⟨c.log.size + i, Nat.le_trans hp (Nat.le_add_right _ _), ?_⟩
  rw [hlog, Array.getElem?_append_right (Nat.le_add_right _ _)]
  simp [hi, hget]

/-- Whether a node is there just if it was, with the data that it had unless that was replaced. -/
def Keeps (c c' : Coordinator) (replaced : List String) (child : String) : Prop :=
  (c'.tree.content? child).isSome = (c.tree.content? child).isSome ∧
    (child ∉ replaced → c'.tree.content? child = c.tree.content? child)

/-- Where nothing happens, a child keeps all it had. -/
theorem Keeps.refl (c : Coordinator) (child : String) : c.Keeps c [] child := ⟨rfl, fun _ => rfl⟩

/-- What is kept over two steps is kept over both together. -/
theorem Keeps.trans {c c' c'' : Coordinator} {replaced replaced' : List String} {child : String}
    (h : c.Keeps c' replaced child) (h' : c'.Keeps c'' replaced' child) :
    c.Keeps c'' (replaced' ++ replaced) child := by
  refine ⟨h'.1.trans h.1, fun hm => ?_⟩
  rw [List.mem_append, not_or] at hm
  exact (h'.2 hm.1).trans (h.2 hm.2)

private theorem TellsOf.tells {c c' c'' : Coordinator} {event : TreeEvent} (h : c.TellsOf c' event)
    (ht : c'.Tells c'') : c.TellsOf c'' event := by
  obtain ⟨events, hlog, hm⟩ := h
  obtain ⟨more, hmore⟩ := ht
  exact ⟨events ++ more, by simp [hmore, hlog], List.mem_append_left _ hm⟩

private theorem tree_publish (c : Coordinator) (tree : Tree) (events : List TreeEvent) :
    (publish { c with tree } events).tree = tree := rfl

/-- A session that changes its state leaves the tree alone. -/
theorem tree_transition (c : Coordinator) (id : SessionId) (state : SessionState) :
    (c.transition id state).tree = c.tree := by
  rcases c.transition_cases id state with ⟨before, -, -, ht⟩ | ⟨-, ht⟩
  · rw [ht]
    rfl
  · rw [ht]

variable {child key name : String}

/-- A put that makes a node come tells the path above it. -/
theorem told_put (hsplit : Key.split? child = some (key, name)) (c : Coordinator)
    (session : SessionId) (path : String) (data : Option String) (ephemeral : Bool) :
    c.TellsOf (c.put session path data ephemeral).2 (.childrenChanged key) ∨
      c.Keeps (c.put session path data ephemeral).2
        (c.replacedBy (.put session path data ephemeral)) child := by
  rcases c.put_cases session path data ephemeral with ⟨hs, hput⟩ | ⟨hs, f, hput⟩
  · rw [hput]
    refine (c.tree.told_put hsplit path data _).imp (fun htold => ⟨_, rfl, htold⟩) fun hkept => ?_
    rw [Keeps, tree_publish]
    by_cases hpath : child = path
    · subst hpath
      rw [if_pos rfl] at hkept
      have hnew : (c.tree.put child data (if ephemeral then some session else none)).1.content?
          child = some data := by
        rw [Tree.content?, Tree.getElem?_put_self]
        rfl
      obtain ⟨before, hbefore⟩ := Option.isSome_iff_exists.mp hkept
      refine ⟨(congrArg Option.isSome hnew).trans hkept.symm, fun hm => hnew.trans ?_⟩
      by_cases hsame : before = data
      · rw [hbefore, hsame]
      · refine absurd ?_ hm
        simp [replacedBy, sessionState?, hs, hbefore, hsame]
    · rw [if_neg hpath] at hkept
      exact ⟨congrArg Option.isSome hkept, fun _ => hkept⟩
  · rw [hput, replacedBy, if_neg fun h => hs h.1]
    exact .inr (.refl c child)

/-- A removal that makes a node go tells the path above it. -/
theorem told_removeWhere (hsplit : Key.split? child = some (key, name)) (c : Coordinator)
    (doomed : String → TreeNode → Bool) :
    c.TellsOf (c.removeWhere doomed).2 (.childrenChanged key) ∨
      c.Keeps (c.removeWhere doomed).2 [] child :=
  (c.tree.told_removeWhere hsplit doomed).imp (fun htold => ⟨_, rfl, htold⟩)
    fun hsame => ⟨congrArg Option.isSome hsame, fun _ => hsame⟩

/-- A move that makes a node come or go tells the path above it. -/
theorem told_after (hsplit : Key.split? child = some (key, name)) (c : Coordinator)
    (move : Move) :
    c.TellsOf (c.after move) (.childrenChanged key) ∨
      c.Keeps (c.after move) (c.replacedBy move) child := by
  have htransition : ∀ (c : Coordinator) (id : SessionId) (state : SessionState),
      c.Keeps (c.transition id state) [] child := by
    intro c id state
    rw [Keeps, tree_transition]
    exact Keeps.refl c child
  cases move with
  | openSession => exact .inr (.refl c child)
  | put session path data ephemeral => exact c.told_put hsplit session path data ephemeral
  | delete session path =>
    rcases c.delete_cases session path with ⟨-, removed, hd⟩ | ⟨-, f, hd⟩
    · simp only [after, hd]
      exact c.told_removeWhere hsplit _
    · simp only [after, hd]
      exact .inr (.refl c child)
  | disconnect id => exact .inr (htransition c id _)
  | reconnect id => exact .inr (htransition c id _)
  | expire id =>
    refine (c.told_removeWhere hsplit fun _ node => node.owner == some id).imp ?_ ?_
    · exact fun htold => htold.tells (tells_transition _ id _)
    · exact fun hkept => hkept.trans (htransition _ id _)

end Coordinator

end Switchboard
