import Switchboard.Command

/-!
# Exporters

An exporter announces the commands of one provider: each becomes an address of the provider, filed
under the command's path. It remembers what it announced, to take it back later.

The exporter is the `Exporter` of `SPEC_FULL.md`, section 4.6, with `exportAll` for `export`.
-/

namespace Switchboard

/-- What a provider has announced. -/
structure Exporter where
  /-- The provider's address. -/
  provider : Address
  /-- What was announced, in order. -/
  exported : List Address := []

namespace Exporter

/-- An exporter that announced nothing. -/
instance : Inhabited Exporter := ⟨{ provider := {} }⟩

/-- An exporter for a provider, which is given a generated node name if it has none. -/
def ofProvider (provider : Address) (generated : String) : Exporter :=
  if (provider.parameter? Address.nodeName).isSome then { provider }
  else { provider := provider.withParameter Address.nodeName generated }

variable {m : Type → Type} [Monad m]

/-- Announces commands in a group with `register`, up to the first that fails. -/
def exportAll (register : Address → m (Outcome Unit)) (group : String) :
    Exporter → List Command → m (Outcome (List Address) × Exporter)
  | e, [] => pure (.ok [], e)
  | e, c :: rest => do
    let address := e.provider.withPath (c.servicePath group)
    match ← register address with
    | .error f => pure (.error f, e)
    | .ok () =>
      let (outcome, e) ← exportAll register group
        { e with exported := e.exported ++ [address] } rest
      pure (outcome.map (address :: ·), e)

/-- Takes addresses back with `unregister`, all of them; the first failure is the outcome. -/
def withdrawAll (unregister : Address → m (Outcome Unit)) : List Address → m (Outcome Unit)
  | [] => pure (.ok ())
  | a :: rest => do
    let outcome ← unregister a
    let later ← withdrawAll unregister rest
    pure (match outcome with
      | .ok () => later
      | .error f => .error f)

/-- Takes back all that was announced; it is forgotten even where that fails. -/
def unexport (unregister : Address → m (Outcome Unit)) (e : Exporter) :
    m (Outcome Unit × Exporter) := do
  let outcome ← withdrawAll unregister e.exported
  pure (outcome, { e with exported := [] })

end Exporter

end Switchboard
