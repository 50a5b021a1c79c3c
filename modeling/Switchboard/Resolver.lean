import Std.Data.ExtTreeMap
import Switchboard.Address.Basic

/-!
# Resolvers

A resolver keeps one invoker per provider address. It remembers under every key which addresses the
last look-up returned, and lets go of the invokers whose address no key holds any more.

The resolver is the `InvokerResolver` of `SPEC_FULL.md`, section 4.6, without its look-up: `answer`
is what `find` does with the addresses that were found, and `evict` is the eviction of section 9.
-/

namespace Switchboard

/-- Invokers `ι` of addresses, and the addresses of keys. -/
structure Resolver (ι : Type) where
  /-- The invokers, one per address. -/
  invokers : List (Address × ι) := []
  /-- The addresses that the last look-up of a key returned and that have an invoker. -/
  byKey : Std.ExtTreeMap String (List Address) := ∅

namespace Resolver

variable {ι : Type} {m : Type → Type} [Monad m]

/-- A resolver without invokers. -/
instance : Inhabited (Resolver ι) := ⟨{}⟩

/-- The invoker of an address. -/
def invoker? (r : Resolver ι) (a : Address) : Option ι :=
  (r.invokers.find? fun entry => entry.1 == a).map Prod.snd

/-- Whether some key holds an address. -/
def isHeld (r : Resolver ι) (a : Address) : Bool :=
  r.byKey.toList.any fun entry => entry.2.any (· == a)

/-- The invoker of an address, which is built by `refer` if there is none; nothing if it cannot be
built. -/
def obtain? (refer : Address → m (Outcome ι)) (r : Resolver ι) (a : Address) :
    m (Option ι × Resolver ι) :=
  match r.invoker? a with
  | some invoker => pure (some invoker, r)
  | none => do
    match ← refer a with
    | .ok invoker => pure (some invoker, { r with invokers := r.invokers ++ [(a, invoker)] })
    | .error _ => pure (none, r)

/-- The invokers of addresses in their order, with the addresses that have one. -/
def obtainAll (refer : Address → m (Outcome ι)) :
    Resolver ι → List Address → m (List (Address × ι) × Resolver ι)
  | r, [] => pure ([], r)
  | r, a :: rest => do
    let (invoker, r) ← r.obtain? refer a
    let (found, r) ← obtainAll refer r rest
    pure (match invoker with
      | some i => ((a, i) :: found, r)
      | none => (found, r))

/-- Takes out the invokers that no key holds. -/
def evict (r : Resolver ι) : List ι × Resolver ι :=
  ((r.invokers.filter fun entry => !r.isHeld entry.1).map Prod.snd,
    { r with invokers := r.invokers.filter fun entry => r.isHeld entry.1 })

/-- Takes over what a look-up of a key returned: the invokers in the order of the addresses, and
those that are let go. -/
def resolve (refer : Address → m (Outcome ι)) (r : Resolver ι) (key : String)
    (addresses : List Address) : m ((List ι × List ι) × Resolver ι) := do
  let (found, r) ← obtainAll refer r addresses
  let (evicted, r) := evict { r with byKey := r.byKey.insert key (found.map Prod.fst) }
  pure ((found.map Prod.snd, evicted), r)

/-- Takes over what became of the look-up of a key; one that failed changes nothing. -/
def answer (refer : Address → m (Outcome ι)) (r : Resolver ι) (key : String)
    (outcome : Outcome (List Address)) : m (Outcome (List ι × List ι) × Resolver ι) :=
  match outcome with
  | .error f => pure (.error f, r)
  | .ok addresses => do
    let (lists, r) ← r.resolve refer key addresses
    pure (.ok lists, r)

/-- Lets go of everything. -/
def clear (r : Resolver ι) : List ι × Resolver ι := (r.invokers.map Prod.snd, {})

end Resolver

end Switchboard
