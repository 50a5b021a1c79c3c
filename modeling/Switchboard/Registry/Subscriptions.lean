import Std.Data.ExtTreeMap

/-!
# Subscriptions

Who listens to which key, in the order in which they came. No key is there without a listener, and
none has a listener twice.

The first listener of a key and the last one count, as for the subscriptions of `SPEC_FULL.md`,
sections 3 and 4.4.
-/

namespace Switchboard

/-- Names a listener. -/
abbrev ListenerId := String

/-- Adds a listener to a list, unless it is there. -/
def addListener (listeners : List ListenerId) (l : ListenerId) : List ListenerId :=
  if l ∈ listeners then listeners else listeners ++ [l]

/-- The listeners of keys. -/
abbrev Subscriptions := Std.ExtTreeMap String (List ListenerId)

namespace Subscriptions

/-- The listeners of a key. -/
def of (s : Subscriptions) (key : String) : List ListenerId := s.getD key []

/-- Adds a listener to a key, and says whether it is the key's first. -/
def subscribe (s : Subscriptions) (key : String) (l : ListenerId) : Bool × Subscriptions :=
  match s[key]? with
  | some listeners => (false, s.insert key (addListener listeners l))
  | none => (true, s.insert key [l])

/-- Removes a listener from a key, and says whether it was the key's last. -/
def unsubscribe (s : Subscriptions) (key : String) (l : ListenerId) : Bool × Subscriptions :=
  match s[key]? with
  | none => (false, s)
  | some listeners =>
    let left := listeners.filter (· ≠ l)
    if left.length = listeners.length then (false, s)
    else if left.isEmpty then (true, s.erase key)
    else (false, s.insert key left)

end Subscriptions

end Switchboard
