import Switchboard.Address.Basic
import Switchboard.Text.Cut

/-!
# Settings

What registries and clients read from the parameters of their addresses.

The settings are `RegistryConfig` and `ClientConfig` of `SPEC_FULL.md`, section 10, with the name of
the cache file of section 6.
-/

namespace Switchboard

/-- Settings of a registry and of its local cache. -/
structure RegistrySettings where
  /-- The directory of the cache file; none is the default directory. -/
  cacheDir : Option String := none
  /-- The period at which looked up keys are read again. -/
  refreshInterval : Duration := .ofMillis 30000
  /-- Changes within this span are written together. -/
  flushDelay : Duration := .ofMillis 100
  /-- Whether every change is written at once. -/
  syncSave : Bool := false
deriving DecidableEq, Repr

/-- The settings that the parameters of a registry's address ask for. -/
def RegistrySettings.ofAddress (a : Address) : RegistrySettings :=
  let defaults : RegistrySettings := {}
  { cacheDir := a.parameter? "cacheDir"
    refreshInterval := a.durationParameter "refreshInterval" defaults.refreshInterval
    flushDelay := a.durationParameter "flushDelay" defaults.flushDelay
    syncSave := a.boolParameter "syncSave" defaults.syncSave }

/-- The name of the file that mirrors what is known of a registry. -/
def cacheFileName (registry : Address) : String :=
  let host := (registry.host.getD "local").toList.map fun c => if c = '/' ∨ c = '\\' then '_' else c
  "registry-" ++ String.ofList host ++ "-" ++ toString registry.port.toNat ++ ".cache"

/-- Settings of the clients of one provider. -/
structure ClientSettings where
  /-- The longest wait for a connection. -/
  connectTimeout : Duration := .ofMillis 3000
  /-- The longest wait for a frame to be written. -/
  ackTimeout : Duration := .ofMillis 3000
  /-- The longest wait for a response; zero waits as long as it takes. -/
  requestTimeout : Duration := .ofMillis 5000
  /-- The number of connections. -/
  connections : Nat := 1
deriving DecidableEq, Repr

/-- The settings that the parameters of a provider's address ask for. There is at least one
connection. -/
def ClientSettings.ofAddress (a : Address) : ClientSettings :=
  let defaults : ClientSettings := {}
  { connectTimeout := a.durationParameter "connectTimeout" defaults.connectTimeout
    ackTimeout := a.durationParameter "ackTimeout" defaults.ackTimeout
    requestTimeout := a.durationParameter Address.requestTimeout defaults.requestTimeout
    connections := (max (a.intParameter Address.connections 1) 1).toNat }

end Switchboard
