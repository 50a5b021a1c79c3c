/-!
# Parameters

Keys with values in the order in which the keys were first given. A key stands once; giving it
again replaces its value in place, and taking it out closes the gap. Two lists of parameters are
the same when they give every key the same value, in whatever order.

They are the insertion-ordered, unique-keyed parameters of `SPEC_FULL.md`, section 3.
-/

namespace Switchboard

/-- Keys with values, every key once. -/
structure Parameters where
  /-- The pairs in order. -/
  entries : List (String × String)
  /-- No key stands twice. -/
  nodup_keys : (entries.map Prod.fst).Nodup
deriving Repr

namespace Parameters

/-- No parameters. -/
def empty : Parameters := ⟨[], by simp⟩

/-- The keys in order. -/
def keys (p : Parameters) : List String := p.entries.map Prod.fst

/-- The value of a key. -/
def get? (p : Parameters) (key : String) : Option String := p.entries.lookup key

/-- Puts `value` in the place of the value of `key`. -/
def overwrite (key value : String) : String × String → String × String :=
  fun entry => if entry.1 = key then (key, value) else entry

private theorem map_fst_overwrite (key value : String) (entries : List (String × String)) :
    (entries.map (overwrite key value)).map Prod.fst = entries.map Prod.fst := by
  rw [List.map_map]
  apply List.map_congr_left
  intro entry _
  by_cases h : entry.1 = key <;> simp [overwrite, h]

/-- Gives `key` a value: in place if it has one, else behind all others. -/
def insert (p : Parameters) (key value : String) : Parameters :=
  if h : key ∈ p.keys then
    ⟨p.entries.map (overwrite key value), by rw [map_fst_overwrite]; exact p.nodup_keys⟩
  else
    ⟨p.entries ++ [(key, value)], by
      rw [List.map_append, List.nodup_append]
      refine ⟨p.nodup_keys, by simp, ?_⟩
      intro a ha b hb hab
      simp only [List.map_cons, List.map_nil, List.mem_singleton] at hb
      exact h (by rw [← hb, ← hab]; exact ha)⟩

/-- Takes a key out. -/
def erase (p : Parameters) (key : String) : Parameters :=
  ⟨p.entries.filter fun entry => entry.1 ≠ key,
    p.nodup_keys.sublist (List.filter_sublist.map Prod.fst)⟩

/-- The parameters given by pairs in order. -/
def ofList (entries : List (String × String)) : Parameters :=
  entries.foldl (fun p entry => p.insert entry.1 entry.2) empty

/-- Whether two lists of parameters give every key the same value. -/
def same (p q : Parameters) : Bool :=
  p.entries.length == q.entries.length &&
    p.entries.all fun entry => q.get? entry.1 == some entry.2

/-- Pairs in ascending order of keys, then of values. -/
def pairLe (a b : String × String) : Bool := a.1 < b.1 || (a.1 == b.1 && a.2 ≤ b.2)

/-- The pairs in ascending order. -/
def sorted (p : Parameters) : List (String × String) := p.entries.mergeSort pairLe

end Parameters

end Switchboard
