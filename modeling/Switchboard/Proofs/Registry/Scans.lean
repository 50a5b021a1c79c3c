import Std.Data.ExtTreeMap.Lemmas
import Switchboard.Proofs.Text.ByteOrder
import Switchboard.Proofs.Text.Cuts
import Switchboard.Registry.Tree

/-!
# The scan for the nodes right below a path

Paths that begin with one lead stand next to each other in the order of bytes, with whatever lies
deeper among them. So a scan that begins at the first path not before the lead and stops at the
first without it finds what a look at every node finds: `Tree.children` gives the nodes whose path
is the path above, without the slashes at its end, a slash, and a name without slashes.
-/

namespace Switchboard

private theorem isPrefix_of_between {lead x y : List Char} (hlow : ¬ x < lead) (hhigh : x < y)
    (h : lead <+: y) : lead <+: x := by
  induction lead generalizing x y with
  | nil => exact List.nil_prefix
  | cons c lead ih =>
    obtain ⟨rest, rfl⟩ := h
    cases x with
    | nil => exact absurd (List.nil_lt_cons c lead) hlow
    | cons d x =>
      simp only [List.cons_append, List.cons_lt_cons_iff] at hlow hhigh
      have hdc : d = c := by
        rcases hhigh with hlt | ⟨heq, -⟩
        · exact absurd (.inl hlt) hlow
        · exact heq
      subst hdc
      rw [List.prefix_cons_inj]
      refine ih (fun hlt => hlow (.inr ⟨rfl, hlt⟩)) ?_ (List.prefix_append lead rest)
      rcases hhigh with hlt | ⟨-, hlt⟩
      · exact absurd hlt (Char.lt_irrefl d)
      · exact hlt

private theorem lt_of_append_lt {lead s t : List Char} (h : lead ++ s < lead ++ t) : s < t := by
  induction lead with
  | nil => exact h
  | cons c lead ih =>
    rcases List.cons_lt_cons_iff.mp h with hlt | ⟨-, hlt⟩
    · exact absurd hlt (Char.lt_irrefl c)
    · exact ih hlt

namespace Tree

/-- A text starts with another if that is how its characters begin. -/
theorem startsWith_iff {text lead : String} :
    startsWith text lead = true ↔ lead.toList <+: text.toList := by
  rw [startsWith, List.isPrefixOf_iff_prefix]

private theorem not_lt_of_startsWith {text lead : String} (h : startsWith text lead = true) :
    ¬ text < lead := by
  rw [String.lt_iff]
  exact (startsWith_iff.mp h).le

private theorem takeWhile_startsWith {entries : List (String × TreeNode)} {lead : String}
    (hsorted : entries.Pairwise fun a b => a.1 < b.1) (hlow : ∀ e, e ∈ entries → ¬ e.1 < lead) :
    (entries.takeWhile fun e => startsWith e.1 lead) =
      entries.filter fun e => startsWith e.1 lead := by
  induction entries with
  | nil => rfl
  | cons e rest ih =>
    obtain ⟨hfirst, hrest⟩ := List.pairwise_cons.mp hsorted
    cases he : startsWith e.1 lead with
    | true =>
      simp only [List.takeWhile_cons, List.filter_cons, he, if_true]
      rw [ih hrest fun e' he' => hlow e' (List.mem_cons_of_mem _ he')]
    | false =>
      have hnone : ∀ e', e' ∈ rest → ¬ startsWith e'.1 lead = true := by
        intro e' he' hlead
        have hbetween := isPrefix_of_between (mt String.lt_iff.mpr (hlow e List.mem_cons_self))
          (String.lt_iff.mp (hfirst e' he')) (startsWith_iff.mp hlead)
        rw [startsWith_iff.mpr hbetween] at he
        cases he
      simp only [List.takeWhile_cons, List.filter_cons, he, Bool.false_eq_true, if_false]
      exact (List.filter_eq_nil_iff.mpr hnone).symm

private theorem scan_eq_filter {entries : List (String × TreeNode)} {lead : String}
    (hsorted : entries.Pairwise fun a b => a.1 < b.1) :
    ((entries.dropWhile fun e => e.1 < lead).takeWhile fun e => startsWith e.1 lead) =
      entries.filter fun e => startsWith e.1 lead := by
  induction entries with
  | nil => rfl
  | cons e rest ih =>
    by_cases hlow : e.1 < lead
    · have he : startsWith e.1 lead = false := by
        rw [Bool.eq_false_iff]
        exact fun h => not_lt_of_startsWith h hlow
      rw [List.dropWhile_cons_of_pos (by simpa using hlow), ih (List.pairwise_cons.mp hsorted).2,
        List.filter_cons_of_neg (by simp [he])]
    · rw [List.dropWhile_cons_of_neg (by simpa using hlow)]
      refine takeWhile_startsWith hsorted fun e' he' => ?_
      rcases List.mem_cons.mp he' with rfl | he'
      · exact hlow
      · have hlt := (List.pairwise_cons.mp hsorted).1 e' he'
        exact fun hlow' => hlow (String.lt_trans hlt hlow')

private theorem pairwise_toList (t : Tree) : t.toList.Pairwise fun a b => a.1 < b.1 := by
  refine List.Pairwise.imp ?_ t.ordered_keys_toList
  exact fun h => compareOfLessAndEq_eq_lt.mp h

/-- The name of what stands right below a path without slashes at its end, if it does so. -/
def nameBelow? (base : List Char) (key : String) : Option String :=
  let name := key.toList.drop (base.length + 1)
  if base ++ ['/'] <+: key.toList ∧ '/' ∉ name then some (String.ofList name) else none

private theorem nameBelow?_eq_some_iff {base : List Char} {key name : String} :
    nameBelow? base key = some name ↔
      '/' ∉ name.toList ∧ key = String.ofList (base ++ '/' :: name.toList) := by
  simp only [nameBelow?, Option.ite_none_right_eq_some, Option.some_inj, and_assoc]
  constructor
  · rintro ⟨⟨rest, hrest⟩, hslash, rfl⟩
    refine ⟨by simpa using hslash, ?_⟩
    rw [← String.toList_inj, ← hrest]
    simp
  · rintro ⟨hslash, rfl⟩
    simp [hslash]

/-- The scan finds what a look at every node finds. -/
theorem children_eq_filterMap (t : Tree) (path : String) :
    t.children path = t.toList.filterMap fun e =>
      (nameBelow? (Text.trimEndBy (· == '/') path.toList) e.1).map fun name =>
        (name, e.2.data) := by
  simp only [children, scan_eq_filter t.pairwise_toList, List.filterMap_filter]
  refine congrArg (List.filterMap · t.toList) (funext fun e => ?_)
  simp only [nameBelow?, startsWith_iff, childLead, ← String.length_toList, String.toList_append,
    String.toList_ofList]
  generalize Text.trimEndBy (· == '/') path.toList = base
  by_cases hlead : base ++ ['/'] <+: e.1.toList
  · by_cases hslash : '/' ∈ e.1.toList.drop (base.length + 1) <;> simp [hlead, hslash]
  · simp [hlead]

private theorem mem_children {t : Tree} {path name : String} {data : Option String} :
    (name, data) ∈ t.children path ↔ '/' ∉ name.toList ∧
      ∃ node, t[String.ofList (Text.trimEndBy (· == '/') path.toList ++ '/' :: name.toList)]? =
        some node ∧ node.data = data := by
  simp only [children_eq_filterMap, List.mem_filterMap, Option.map_eq_some_iff, Prod.mk.injEq,
    nameBelow?_eq_some_iff, ← Std.ExtTreeMap.mem_toList_iff_getElem?_eq_some]
  constructor
  · rintro ⟨⟨_, node⟩, hmem, _, ⟨hslash, rfl⟩, rfl, hdata⟩
    exact ⟨hslash, node, hmem, hdata⟩
  · rintro ⟨hslash, node, hmem, hdata⟩
    exact ⟨_, hmem, name, ⟨hslash, rfl⟩, rfl, hdata⟩

/-- The data of the node at a path, if there is a node. -/
def content? (t : Tree) (path : String) : Option (Option String) := t[path]?.map (·.data)

/-- Right below a path are the nodes whose path is the lead of the path and a name without
slashes. -/
theorem mem_children_iff {t : Tree} {path name : String} {data : Option String} :
    (name, data) ∈ t.children path ↔
      '/' ∉ name.toList ∧ t.content? (childLead path ++ name) = some data := by
  have hpath : childLead path ++ name =
      String.ofList (Text.trimEndBy (· == '/') path.toList ++ '/' :: name.toList) := by
    rw [← String.toList_inj]
    simp [childLead]
  rw [mem_children, hpath, content?, Option.map_eq_some_iff]

private theorem pairwise_children (t : Tree) (path : String) :
    (t.children path).Pairwise fun a b => a.1 < b.1 := by
  rw [children_eq_filterMap]
  refine t.pairwise_toList.filterMap _ fun e e' hlt c hc c' hc' => ?_
  obtain ⟨name, hname, rfl⟩ := Option.map_eq_some_iff.mp hc
  obtain ⟨name', hname', rfl⟩ := Option.map_eq_some_iff.mp hc'
  rw [(nameBelow?_eq_some_iff.mp hname).2, (nameBelow?_eq_some_iff.mp hname').2, String.lt_iff,
    String.toList_ofList, String.toList_ofList] at hlt
  rw [String.lt_iff]
  exact (List.cons_lt_cons_iff.mp (lt_of_append_lt hlt)).resolve_left (Char.lt_irrefl '/') |>.2

/-- A path is cut into one without slashes at its end and the slashes. Right below it, whatever else
the tree holds, the scan finds all nodes whose path is the one without the slashes, a slash and a
name without slashes, and no others, as a look at every node does. They come in the order of the
bytes of their names, each once, as all nodes come in the order of the bytes of their paths. -/
theorem children_in_order (t : Tree) (path : String) :
    (t.toList.Pairwise fun a b => Text.Utf8.encode a.1.toList < Text.Utf8.encode b.1.toList) ∧
      ∃ base slashes, path.toList = base ++ List.replicate slashes '/' ∧
        base.getLast? ≠ some '/' ∧
        t.children path =
          t.toList.filterMap (fun e => (nameBelow? base e.1).map fun name => (name, e.2.data)) ∧
        (∀ name data, (name, data) ∈ t.children path ↔ '/' ∉ name.toList ∧
          ∃ node, t[String.ofList (base ++ '/' :: name.toList)]? = some node ∧
            node.data = data) ∧
        (t.children path).Pairwise fun a b =>
          Text.Utf8.encode a.1.toList < Text.Utf8.encode b.1.toList := by
  obtain ⟨slashes, hpath⟩ := Text.exists_trimEndBy_append_replicate '/' path.toList
  refine ⟨t.pairwise_toList.imp fun h => ?_, _, slashes, hpath,
    Text.getLast?_trimEndBy_ne '/' path.toList, t.children_eq_filterMap path, fun name data => ?_,
    (t.pairwise_children path).imp fun h => ?_⟩
  · exact Text.Utf8.encode_lt_encode_iff.mpr (String.lt_iff.mp h)
  · exact mem_children
  · exact Text.Utf8.encode_lt_encode_iff.mpr (String.lt_iff.mp h)

example :
    let t : Tree := ["/a", "/a-b", "/a/b", "/a/b/c", "/a0"].foldl (·.insert · {}) ∅
    t.children "/a//" = [("b", none)] := by decide +kernel

end Tree

end Switchboard
