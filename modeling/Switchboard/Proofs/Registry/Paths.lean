import Switchboard.Proofs.Registry.Children

/-!
# Canonical paths

A canonical path is the root, or goes down from it by steps, each of which is written behind a slash
and is neither empty nor holds one. Every canonical path stands right below one canonical path, and
below no other, and all paths on the way to it are canonical.
-/

namespace Switchboard

namespace Key

/-- Whether a text is one step of a canonical path. -/
def IsStep (step : String) : Prop := step ≠ "" ∧ '/' ∉ step.toList

/-- Whether a text is a step can be read off it. -/
instance (step : String) : Decidable (IsStep step) := inferInstanceAs (Decidable (_ ∧ _))

/-- Goes down from a path by steps; the empty text stands for the root. -/
def descend (above : String) (steps : List String) : String :=
  steps.foldl (fun path step => path ++ "/" ++ step) above

/-- The path that goes down from the root by steps. -/
def ofSteps (steps : List String) : String := if steps.isEmpty then "/" else descend "" steps

/-- Whether a path is the root or goes down from it by steps. -/
def IsCanonical (path : String) : Prop :=
  ∃ steps : List String, (∀ step ∈ steps, IsStep step) ∧ path = ofSteps steps

variable {path : String} {steps : List String}

/-- The last step is gone down last. -/
theorem descend_concat (above : String) (steps : List String) (step : String) :
    descend above (steps ++ [step]) = descend above steps ++ "/" ++ step := by
  simp [descend, List.foldl_append]

/-- No slash is trimmed off behind a step. -/
theorem trimEndBy_descend (h : ∀ step ∈ steps, IsStep step) :
    Text.trimEndBy (· == '/') (descend "" steps).toList = (descend "" steps).toList := by
  rcases steps.eq_nil_or_concat with rfl | ⟨init, last, rfl⟩
  · rfl
  · obtain ⟨hne, hslash⟩ := h last (by simp)
    rw [List.concat_eq_append, descend_concat, String.toList_append]
    exact Text.trimEndBy_append_of_not_mem (by simpa using hne) hslash _

private theorem trimEndBy_ofSteps (h : ∀ step ∈ steps, IsStep step) :
    Text.trimEndBy (· == '/') (ofSteps steps).toList = (descend "" steps).toList := by
  unfold ofSteps
  split
  · next hnil =>
    rw [List.isEmpty_iff.mp hnil]
    rfl
  · exact trimEndBy_descend h

/-- What every path right below the path of some steps begins with. -/
theorem childLead_ofSteps (h : ∀ step ∈ steps, IsStep step) :
    Tree.childLead (ofSteps steps) = descend "" steps ++ "/" := by
  rw [Tree.childLead, trimEndBy_ofSteps h, String.ofList_toList]

/-- A path right below a canonical path is split into that path and a name. -/
theorem IsCanonical.split?_childLead (h : IsCanonical path) {name : String}
    (hname : '/' ∉ name.toList) : split? (Tree.childLead path ++ name) = some (path, name) := by
  obtain ⟨steps, hsteps, rfl⟩ := h
  rw [Key.split?_childLead _ hname, trimEndBy_ofSteps hsteps, String.ofList_toList]
  cases steps with
  | nil => rfl
  | cons step rest =>
    have hne : (descend "" (step :: rest)).toList ≠ [] := by
      obtain ⟨init, last, hlast⟩ := (step :: rest).eq_nil_or_concat.resolve_left (by simp)
      rw [hlast, List.concat_eq_append, descend_concat]
      simp
    simp [ofSteps, hne]

/-- A canonical path stands right below a canonical path, the root below itself. -/
theorem IsCanonical.exists_eq_childLead (h : IsCanonical path) :
    ∃ parent name, IsCanonical parent ∧ '/' ∉ name.toList ∧
      path = Tree.childLead parent ++ name := by
  obtain ⟨steps, hsteps, rfl⟩ := h
  rcases steps.eq_nil_or_concat with rfl | ⟨init, last, rfl⟩
  · exact ⟨"/", "", ⟨[], by simp, rfl⟩, by simp, by decide +kernel⟩
  · have hinit : ∀ step ∈ init, IsStep step := fun step hm => hsteps step (by simp [hm])
    refine ⟨ofSteps init, last, ⟨init, hinit, rfl⟩, (hsteps last (by simp)).2, ?_⟩
    rw [childLead_ofSteps hinit, List.concat_eq_append, ← descend_concat]
    simp [ofSteps]

/-- A canonical path is split into the path that it stands right below and its name. -/
theorem IsCanonical.split?_eq (h : IsCanonical path) :
    ∃ name, '/' ∉ name.toList ∧ split? path = some (Tree.above path, name) ∧
      path = Tree.childLead (Tree.above path) ++ name := by
  obtain ⟨parent, name, hparent, hname, rfl⟩ := h.exists_eq_childLead
  have hsplit := hparent.split?_childLead hname
  have habove : Tree.above (Tree.childLead parent ++ name) = parent := by
    rw [Tree.above, hsplit]
  exact ⟨name, hname, by rw [habove, hsplit], by rw [habove]⟩

/-- Just the canonical paths right below a path are the lead of that path and a name. -/
theorem IsCanonical.above_eq_iff (h : IsCanonical path) {key : String} (hkey : IsCanonical key) :
    Tree.above key = path ↔ ∃ name, '/' ∉ name.toList ∧ key = Tree.childLead path ++ name := by
  constructor
  · rintro rfl
    obtain ⟨name, hname, -, heq⟩ := hkey.split?_eq
    exact ⟨name, hname, heq⟩
  · rintro ⟨name, hname, rfl⟩
    rw [Tree.above, h.split?_childLead hname]

end Key

namespace Tree

/-- The steps of any path are steps of canonical paths. -/
theorem isStep_of_mem_segments {path step : String} (h : step ∈ segments path) :
    Key.IsStep step := by
  simp only [segments, List.mem_map, List.mem_filter] at h
  obtain ⟨piece, ⟨hpiece, hne⟩, rfl⟩ := h
  refine ⟨by simpa using hne, ?_⟩
  rw [String.toList_ofList]
  exact Text.not_mem_of_mem_pieces hpiece

/-- The paths on the way down by steps are canonical. -/
theorem isCanonical_of_mem_waypoints {before steps : List String} {key : String}
    (hbefore : ∀ step ∈ before, Key.IsStep step) (hsteps : ∀ step ∈ steps, Key.IsStep step)
    (h : key ∈ waypoints (Key.descend "" before) steps) : Key.IsCanonical key := by
  induction steps generalizing before with
  | nil => cases h
  | cons step rest ih =>
    have hstep : ∀ s ∈ before ++ [step], Key.IsStep s := by
      simp only [List.mem_append, List.mem_singleton]
      rintro s (hs | rfl)
      · exact hbefore s hs
      · exact hsteps s List.mem_cons_self
    rw [waypoints, ← Key.descend_concat] at h
    rcases List.mem_cons.mp h with rfl | h
    · exact ⟨before ++ [step], hstep, by simp [Key.ofSteps]⟩
    · exact ih hstep (fun s hs => hsteps s (List.mem_cons_of_mem _ hs)) h

/-- The paths on the way to any path are canonical. -/
theorem isCanonical_of_mem_way {path key : String} (h : key ∈ waypoints "" (segments path)) :
    Key.IsCanonical key :=
  isCanonical_of_mem_waypoints (show ∀ step ∈ ([] : List String), Key.IsStep step by simp)
    (fun _ => isStep_of_mem_segments) h

end Tree

end Switchboard
