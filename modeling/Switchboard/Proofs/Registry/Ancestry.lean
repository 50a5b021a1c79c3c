import Switchboard.Proofs.Registry.Announcements

/-!
# Nodes above nodes

A put creates what is missing on the way to its path, and a deletion takes all that lies below, so
neither leaves a node without the nodes above it. A session that ends takes just its own nodes: what
lies below them stays, and the place above it is vacant until something is put there or below it
again.
-/

namespace Switchboard

namespace Key

variable {above : String} {steps : List String}

/-- The path that goes down from the root by steps is made of the steps, each behind a slash. -/
theorem toList_descend (steps : List String) :
    (descend "" steps).toList = steps.flatMap fun step => '/' :: step.toList := by
  induction steps using List.reverseRecOn with
  | nil => rfl
  | append_singleton init last ih => simp [descend_concat, ih]

/-- What stands between the slashes of such a path are the steps. -/
theorem pieces_descend (h : ∀ step ∈ steps, IsStep step) :
    Text.pieces '/' (descend "" steps).toList = [] :: steps.map String.toList := by
  induction steps using List.reverseRecOn with
  | nil => rfl
  | append_singleton init last ih =>
    have hlast : '/' ∉ last.toList := (h last (by simp)).2
    have hinit := ih fun step hm => h step (List.mem_append_left _ hm)
    have hdown : (descend "" (init ++ [last])).toList =
        (descend "" init).toList ++ '/' :: last.toList := by
      simp [descend_concat]
    rw [hdown, Text.pieces_append_mark, hinit, Text.pieces_of_not_mem hlast]
    simp

private theorem ofSteps_of_ne_nil (h : steps ≠ []) : ofSteps steps = descend "" steps := by
  simp [ofSteps, h]

/-- The steps of the path that goes down by steps are those. -/
theorem segments_ofSteps (h : ∀ step ∈ steps, IsStep step) :
    Tree.segments (ofSteps steps) = steps := by
  by_cases hnil : steps = []
  · subst hnil
    decide +kernel
  · have hall : steps.filter ((fun piece => !piece.isEmpty) ∘ String.toList) = steps :=
      List.filter_eq_self.mpr fun step hm => by simpa using (h step hm).1
    rw [ofSteps_of_ne_nil hnil, Tree.segments, pieces_descend h,
      List.filter_cons_of_neg (by simp), List.filter_map, List.map_map, hall]
    exact (List.map_congr_left fun _ _ => String.ofList_toList).trans (List.map_id _)

/-- Whether a path lies above another: its steps are the first few of the other's. The root, which
has no steps, is not counted. -/
def IsAbove (above key : String) : Prop :=
  ∃ steps more : List String, steps ≠ [] ∧ more ≠ [] ∧ (∀ step ∈ steps ++ more, IsStep step) ∧
    above = ofSteps steps ∧ key = ofSteps (steps ++ more)

private theorem not_isAbove_root {key : String} : ¬ IsAbove "/" key := by
  rintro ⟨steps, more, hne, -, hsteps, hroot, -⟩
  have hnil := segments_ofSteps fun step hm => hsteps step (List.mem_append_left more hm)
  rw [← hroot] at hnil
  exact hne (hnil.symm.trans (by decide +kernel))

/-- What lies above a path that lies above another lies above that as well. -/
theorem IsAbove.trans {key path : String} (h : IsAbove above key) (h' : IsAbove key path) :
    IsAbove above path := by
  obtain ⟨steps, more, hne, -, hsteps, rfl, rfl⟩ := h
  obtain ⟨steps', more', -, hmore', hsteps', heq, rfl⟩ := h'
  have hsame : steps ++ more = steps' := by
    rw [← segments_ofSteps hsteps, heq,
      segments_ofSteps fun step hm => hsteps' step (List.mem_append_left _ hm)]
  subst hsame
  exact ⟨steps, more ++ more', hne, by simp [hmore'], by simpa using hsteps', rfl, by simp⟩

/-- What lies below a path that is at another or below it is below that as well. -/
theorem IsAbove.isWithin {key path : String} (h : IsAbove above key)
    (hwithin : Tree.isWithin path above = true) : Tree.isWithin path key = true := by
  obtain ⟨steps, more, hne, hmore, -, rfl, rfl⟩ := h
  obtain ⟨step, more, rfl⟩ := List.exists_cons_of_ne_nil hmore
  rw [ofSteps_of_ne_nil hne] at hwithin
  have hkey : (ofSteps (steps ++ step :: more)).toList =
      (descend "" steps ++ "/").toList ++
        (step.toList ++ more.flatMap fun s => '/' :: s.toList) := by
    simp [ofSteps_of_ne_nil, toList_descend]
  simp only [Tree.isWithin, Bool.or_eq_true, beq_iff_eq, Tree.startsWith_iff] at hwithin ⊢
  right
  rw [hkey]
  rcases hwithin with rfl | hstart
  · exact List.prefix_append _ _
  · refine hstart.trans ?_
    rw [String.toList_append, List.append_assoc]
    exact List.prefix_append _ _

end Key

namespace Tree

variable {t : Tree} {path key above : String}

/-- The way down by steps leads through the paths of the first few of them. -/
theorem mem_waypoints_iff {start : String} {steps : List String} :
    key ∈ waypoints start steps ↔
      ∃ init rest, init ≠ [] ∧ steps = init ++ rest ∧ key = Key.descend start init := by
  induction steps generalizing start with
  | nil => simp [waypoints]
  | cons step rest ih =>
    rw [waypoints, List.mem_cons, ih]
    constructor
    · rintro (rfl | ⟨init, tail, -, rfl, rfl⟩)
      · exact ⟨[step], rest, by simp, rfl, rfl⟩
      · exact ⟨step :: init, tail, by simp, rfl, rfl⟩
    · rintro ⟨init, tail, hinit, hsteps, rfl⟩
      obtain ⟨first, init, rfl⟩ := List.exists_cons_of_ne_nil hinit
      obtain ⟨rfl, rfl⟩ := List.cons.inj hsteps
      by_cases hnil : init = []
      · exact .inl (by rw [hnil]; rfl)
      · exact .inr ⟨init, tail, hnil, rfl, rfl⟩

/-- The way to a canonical path leads through the paths above it, and ends there. -/
theorem eq_or_isAbove_of_mem_way (hpath : Key.IsCanonical path)
    (h : key ∈ waypoints "" (segments path)) : key = path ∨ Key.IsAbove key path := by
  obtain ⟨steps, hsteps, rfl⟩ := hpath
  rw [Key.segments_ofSteps hsteps] at h
  obtain ⟨init, rest, hinit, rfl, rfl⟩ := mem_waypoints_iff.mp h
  rw [← Key.ofSteps_of_ne_nil hinit]
  by_cases hrest : rest = []
  · exact .inl (by rw [hrest, List.append_nil])
  · exact .inr ⟨init, rest, hinit, hrest, hsteps, rfl, rfl⟩

private theorem mem_way_of_isAbove (h : Key.IsAbove key path) :
    key ∈ waypoints "" (segments path) := by
  obtain ⟨steps, more, hne, -, hsteps, rfl, rfl⟩ := h
  rw [Key.segments_ofSteps hsteps, Key.ofSteps_of_ne_nil hne]
  exact mem_waypoints_iff.mpr ⟨steps, more, hne, rfl, rfl⟩

end Tree

namespace Coordinator

variable {c : Coordinator} {moves : List Move} {move : Move} {above key path : String}

/-- Whether a move brings a node to a path: it puts one there or below. -/
def Brings (c : Coordinator) : Move → String → Prop
  | .put session path _ _, key =>
    c.sessions[session]? = some .connected ∧ (key = path ∨ Key.IsAbove key path)
  | _, _ => False

/-- Whether a move takes what is at a path: it deletes a node there or above, or it ends the session
that owns the node. -/
def Takes (c : Coordinator) : Move → String → Prop
  | .delete session path, key =>
    c.sessions[session]? = some .connected ∧ Tree.isWithin path key = true
  | .expire id, key => c.Owns id key
  | _, _ => False

/-- The nodes after a removal are those that were not doomed. -/
theorem isSome_removeWhere (c : Coordinator) (doomed : String → TreeNode → Bool) (key : String) :
    (c.removeWhere doomed).2.tree[key]?.isSome = true ↔
      c.tree[key]?.isSome = true ∧ ¬ c.tree[key]?.any (doomed key) = true := by
  change (c.tree.removeWhere doomed).1[key]?.isSome = true ↔ _
  rw [Tree.getElem?_removeWhere]
  cases c.tree[key]? <;> simp

/-- The nodes after a move are those that it brings and those that it does not take. -/
theorem isSome_tree_after (hmove : move.IsCanonical) (c : Coordinator) (key : String) :
    (c.after move).tree[key]?.isSome = true ↔
      c.Brings move key ∨ c.tree[key]?.isSome = true ∧ ¬ c.Takes move key := by
  cases move with
  | openSession => simp [after, openSession, Brings, Takes]
  | put session path data ephemeral =>
    have hway : key = path ∨ key ∈ Tree.waypoints "" (Tree.segments path) ↔
        key = path ∨ Key.IsAbove key path :=
      ⟨fun h => h.elim .inl (Tree.eq_or_isAbove_of_mem_way hmove),
        Or.imp_right Tree.mem_way_of_isAbove⟩
    rcases c.put_cases session path data ephemeral with ⟨hs, hput⟩ | ⟨hs, f, hput⟩
    · simp only [after, hput, Brings, Takes, hs, true_and, not_false_eq_true, and_true]
      rw [or_comm, ← hway]
      exact c.tree.isSome_put path data _ key
    · simp [after, hput, Brings, Takes, hs]
  | delete session path =>
    rcases c.delete_cases session path with ⟨hs, removed, hd⟩ | ⟨hs, f, hd⟩
    · simp only [after, hd, Brings, Takes, hs, true_and, false_or, isSome_removeWhere]
      cases c.tree[key]? <;> simp
    · simp [after, hd, Brings, Takes, hs]
  | disconnect id => simp [after, disconnect, tree_transition, Brings, Takes]
  | reconnect id => simp [after, reconnect, tree_transition, Brings, Takes]
  | expire id =>
    simp only [after, expire, tree_transition, isSome_removeWhere, Brings, Takes, Owns, false_or]
    cases c.tree[key]? <;> simp

/-- Whoever puts a node below a path puts one below all paths above that, too. -/
theorem brings_of_isAbove (habove : Key.IsAbove above key) (h : c.Brings move key) :
    c.Brings move above := by
  cases move with
  | put session path data ephemeral =>
    obtain ⟨hs, rfl | hkey⟩ := h
    · exact ⟨hs, .inr habove⟩
    · exact ⟨hs, .inr (habove.trans hkey)⟩
  | _ => exact h

/-- A deletion takes what lies below what it takes. -/
theorem takes_delete_of_isAbove {session : SessionId} (habove : Key.IsAbove above key)
    (h : c.Takes (.delete session path) above) : c.Takes (.delete session path) key :=
  ⟨h.1, habove.isWithin h.2⟩

/-- Whether a path is vacated after a run of moves: its node went with its session, and nothing was
put there or below since. -/
inductive IsVacated : List Move → String → Prop
  /-- The session ends that owns the node. -/
  | expire {moves : List Move} {id : SessionId} {path : String}
      (h : (moves.foldl Coordinator.after {}).Owns id path) :
      IsVacated (moves ++ [.expire id]) path
  /-- Another move brings nothing to the path. -/
  | stay {moves : List Move} {move : Move} {path : String} (h : IsVacated moves path)
      (hmove : ¬ (moves.foldl Coordinator.after {}).Brings move path) :
      IsVacated (moves ++ [move]) path

/-- Nothing is at a path that is vacated. -/
theorem IsVacated.tree_eq_none (h : IsVacated moves path)
    (hmoves : ∀ move ∈ moves, move.IsCanonical) :
    ¬ (moves.foldl Coordinator.after {}).tree[path]?.isSome = true := by
  induction h with
  | @expire moves id path howns =>
    have hmove : (Move.expire id).IsCanonical := trivial
    rw [List.foldl_append, List.foldl_cons, List.foldl_nil, isSome_tree_after hmove]
    rintro (hbrings | ⟨-, htakes⟩)
    · exact hbrings
    · exact htakes howns
  | @stay moves move path _ hmove ih =>
    rw [List.foldl_append, List.foldl_cons, List.foldl_nil,
      isSome_tree_after (hmoves move (by simp))]
    rintro (hbrings | ⟨hold, -⟩)
    · exact hmove hbrings
    · exact ih (fun m hm => hmoves m (List.mem_append_left _ hm)) hold

/-- A path above a node has a node or is vacated. -/
theorem isSome_or_isVacated (hmoves : ∀ move ∈ moves, move.IsCanonical)
    (habove : Key.IsAbove above key)
    (hkey : (moves.foldl Coordinator.after {}).tree[key]?.isSome = true) :
    (moves.foldl Coordinator.after {}).tree[above]?.isSome = true ∨ IsVacated moves above := by
  induction moves using List.reverseRecOn with
  | nil => simp at hkey
  | append_singleton moves move ih =>
    have hmove := hmoves move (by simp)
    have ih := ih fun m hm => hmoves m (List.mem_append_left _ hm)
    simp only [List.foldl_append, List.foldl_cons, List.foldl_nil,
      isSome_tree_after hmove] at hkey ⊢
    by_cases hbrings : (moves.foldl Coordinator.after {}).Brings move above
    · exact .inl (.inl hbrings)
    obtain ⟨hold, hleft⟩ := hkey.resolve_left fun h => hbrings (brings_of_isAbove habove h)
    rcases ih hold with hthere | hvacated
    · by_cases htakes : (moves.foldl Coordinator.after {}).Takes move above
      · -- Only a session that ends takes a node and leaves what lies below it.
        cases move with
        | expire id => exact .inr (.expire htakes)
        | delete session path => exact absurd (takes_delete_of_isAbove habove htakes) hleft
        | _ => exact htakes.elim
      · exact .inl (.inr ⟨hthere, htakes⟩)
    · exact .inr (hvacated.stay hbrings)

/-- The root comes to be a node only by being put itself. -/
theorem mem_of_isSome_root (hmoves : ∀ move ∈ moves, move.IsCanonical)
    (h : (moves.foldl Coordinator.after {}).tree["/"]?.isSome = true) :
    ∃ session data ephemeral, .put session "/" data ephemeral ∈ moves := by
  induction moves using List.reverseRecOn with
  | nil => simp at h
  | append_singleton moves move ih =>
    have ih := ih fun m hm => hmoves m (List.mem_append_left _ hm)
    simp only [List.foldl_append, List.foldl_cons, List.foldl_nil,
      isSome_tree_after (hmoves move (by simp))] at h
    rcases h with hbrings | ⟨hold, -⟩
    · cases move with
      | put session path data ephemeral =>
        obtain ⟨-, rfl | habove⟩ := hbrings
        · exact ⟨session, data, ephemeral, by simp⟩
        · exact absurd habove Key.not_isAbove_root
      | _ => exact hbrings.elim
    · obtain ⟨session, data, ephemeral, hm⟩ := ih hold
      exact ⟨session, data, ephemeral, List.mem_append_left _ hm⟩

/-- After any run of moves about canonical paths, a path above a node lacks a node just if it is
vacated: the session that owned its node ended, which takes what the session owned and leaves what
lies below that, and nothing was put there or below since. Neither puts nor deletions make such a
gap. The root, which no put below it brings, is a node only if it was put itself. -/
theorem ancestor_missing_iff (hmoves : ∀ move ∈ moves, move.IsCanonical) :
    let c := moves.foldl after {}
    (∀ above key, Key.IsAbove above key → c.tree[key]?.isSome = true →
      (c.tree[above]? = none ↔ IsVacated moves above)) ∧
    (c.tree["/"]?.isSome = true →
      ∃ session data ephemeral, .put session "/" data ephemeral ∈ moves) := by
  intro c
  refine ⟨fun above key habove hkey => ?_, mem_of_isSome_root hmoves⟩
  rw [← Option.not_isSome_iff_eq_none]
  constructor
  · exact (isSome_or_isVacated hmoves habove hkey).resolve_left
  · exact fun h => h.tree_eq_none hmoves

/-- A session ends that owns a node above another one, and leaves a gap there. The next put below
the gap closes it. -/
theorem ancestor_missing_until_put :
    let moves : List Move := [.openSession, .put 1 "/a" (some "x") true,
      .put 1 "/a/b" (some "y") false, .expire 1]
    let later := moves ++ [.openSession, .put 2 "/a/c" none false]
    (∀ move ∈ later, move.IsCanonical) ∧ Key.IsAbove "/a" "/a/b" ∧
      (moves.foldl after {}).tree["/a/b"]?.isSome = true ∧
      (moves.foldl after {}).tree["/a"]? = none ∧ IsVacated moves "/a" ∧
      (later.foldl after {}).tree["/a"]? = some {} ∧ ¬ IsVacated later "/a" := by
  intro moves later
  have ha : Key.IsCanonical "/a" := ⟨["a"], by decide +kernel, by decide +kernel⟩
  have hab : Key.IsCanonical "/a/b" := ⟨["a", "b"], by decide +kernel, by decide +kernel⟩
  have hac : Key.IsCanonical "/a/c" := ⟨["a", "c"], by decide +kernel, by decide +kernel⟩
  have habove : Key.IsAbove "/a" "/a/b" :=
    ⟨["a"], ["b"], by simp, by simp, by decide +kernel, by decide +kernel, by decide +kernel⟩
  have hlater : ∀ move ∈ later, move.IsCanonical := by
    simp only [later, moves, List.cons_append, List.nil_append, List.forall_mem_cons,
      Move.IsCanonical]
    exact ⟨trivial, ha, hab, trivial, trivial, hac, by simp⟩
  have hmoves : ∀ move ∈ moves, move.IsCanonical :=
    fun move hm => hlater move (List.mem_append_left _ hm)
  have hkey : (moves.foldl after {}).tree["/a/b"]?.isSome = true := by decide +kernel
  have hgap : (moves.foldl after {}).tree["/a"]? = none := by decide +kernel
  have hkey' : (later.foldl after {}).tree["/a/b"]?.isSome = true := by decide +kernel
  have hclosed : (later.foldl after {}).tree["/a"]? = some {} := by decide +kernel
  refine ⟨hlater, habove, hkey, hgap, ?_, hclosed, fun hvacated => ?_⟩
  · exact ((ancestor_missing_iff hmoves).1 _ _ habove hkey).mp hgap
  · have hnone := ((ancestor_missing_iff hlater).1 _ _ habove hkey').mpr hvacated
    rw [hclosed] at hnone
    cases hnone

end Coordinator

end Switchboard
