import Switchboard.Address.Key
import Switchboard.Address.Reader
import Switchboard.Properties.Reader
import Switchboard.Properties.Writer
import Switchboard.Registry.Disk
import Switchboard.Settings

/-!
# Local caches

A cache keeps, under every key, the texts of the addresses that were last seen there, and mirrors
them to one file. It counts the changes made and remembers the count that the file stands for, so
that a write has something to do just when the two differ.

The cache is the local cache of `SPEC_FULL.md`, section 4.4: `changed` is what `mutated` does to the
count of changes, and `write` is one write of the file. `followData` and `followChildren` are what
`fire_data_change` and `fire_child_change` do to the cache.
-/

namespace Switchboard

/-- Texts of addresses under keys. A key may be there without any text. -/
abbrev CacheEntries := Std.ExtTreeMap String (Std.ExtTreeSet String)

namespace CacheEntries

/-- Adds a text under a key, and says whether it was new. -/
def add (e : CacheEntries) (key text : String) : Bool × CacheEntries :=
  let texts := e.getD key ∅
  (!texts.contains text, e.insert key (texts.insert text))

/-- Removes the texts under a key that satisfy a condition, and the key once it has none; says
whether there were any. -/
def removeWhere (e : CacheEntries) (key : String) (doomed : String → Bool) :
    Bool × CacheEntries :=
  match e[key]? with
  | none => (false, e)
  | some texts =>
    let left := texts.filter fun text => !doomed text
    (left.size ≠ texts.size, if left.isEmpty then e.erase key else e.insert key left)

/-- Replaces all under a key, and says whether that made a difference to its texts; the key is
there afterwards. -/
def replace (e : CacheEntries) (key : String) (texts : List String) : Bool × CacheEntries :=
  let fresh := Std.ExtTreeSet.ofList texts
  (e.getD key ∅ != fresh, e.insert key fresh)

/-- The comment at the head of the file. -/
def heading : String := "dendrite registry cache"

/-- The entries as they are written: the texts of a key with blanks between them. -/
def joined (e : CacheEntries) : List (String × String) :=
  e.toList.map fun entry => (entry.1, String.intercalate " " entry.2.toList)

/-- The text of the file. -/
def render (stamp : String) (e : CacheEntries) : String :=
  Properties.render heading stamp e.joined

/-- The texts that blanks separate. -/
def textsOf (value : String) : Std.ExtTreeSet String :=
  Std.ExtTreeSet.ofList ((Text.words value.toList).map String.ofList)

/-- The entries that a file stands for; of several values of a key the last counts. -/
def ofFile (text : String) : CacheEntries :=
  (Properties.parse text).foldl (fun e entry => e.insert entry.1 (textsOf entry.2)) ∅

/-- The entries that the bytes of a file stand for; no file stands for none. -/
def ofBytes : Option Bytes → CacheEntries
  | some bytes => ofFile (String.ofList (Text.Utf8.decodeLossy bytes))
  | none => ∅

end CacheEntries

/-- A cache and its file. -/
structure Cache where
  /-- The folder of the file. -/
  folder : String := ""
  /-- The name of the file. -/
  file : String := ""
  /-- Changes within this span are written together. -/
  flushDelay : Duration := .ofMillis 100
  /-- Whether every change is written at once. -/
  syncSave : Bool := false
  /-- What is known. -/
  entries : CacheEntries := ∅
  /-- The number of changes made, in 64 bits. -/
  version : UInt64 := 0
  /-- The number of changes that the file holds. -/
  written : UInt64 := 0
  /-- Whether a write is due after the delay. -/
  flushPending : Bool := false

namespace Cache

/-- A cache without keys. -/
instance : Inhabited Cache := ⟨{}⟩

/-- A cache that starts with what its file holds. -/
def load (disk : Disk) (folder file : String) (flushDelay : Duration) (syncSave : Bool) : Cache :=
  { folder, file, flushDelay, syncSave, entries := .ofBytes (Disk.read disk folder file) }

/-- Takes over the outcome of a change. -/
def changed (c : Cache) (outcome : Bool × CacheEntries) : Bool × Cache :=
  (outcome.1, { c with
    entries := outcome.2
    version := if outcome.1 then c.version + 1 else c.version })

/-- The keys in ascending order. -/
def keys (c : Cache) : List String := c.entries.keys

/-- The addresses under a key; texts that are none are skipped. -/
def addresses (c : Cache) (key : String) : Option (List Address) :=
  c.entries[key]?.map fun texts => texts.toList.filterMap fun text => (Address.parse text).toOption

/-- Adds an address under a key. -/
def insert (c : Cache) (key : String) (a : Address) : Bool × Cache :=
  c.changed (c.entries.add key a.text)

/-- Removes the texts under a key that satisfy a condition. -/
def removeWhere (c : Cache) (key : String) (doomed : String → Bool) : Bool × Cache :=
  c.changed (c.entries.removeWhere key doomed)

/-- Removes an address under a key. -/
def remove (c : Cache) (key : String) (a : Address) : Bool × Cache :=
  c.removeWhere key fun text => text == a.text

/-- Replaces all under a key. -/
def replace (c : Cache) (key : String) (addresses : List Address) : Bool × Cache :=
  c.changed (c.entries.replace key (addresses.map Address.text))

/-- Writes the file if anything changed since it was last written. A write that fails leaves the
changes to the next one. -/
def write (c : Cache) (stamp : String) (disk : Disk) : Outcome Unit × Cache × Disk :=
  if c.version = c.written then (.ok (), c, disk)
  else
    let content := Text.Utf8.encode (c.entries.render stamp).toList
    match Disk.replaceFile disk c.folder c.file content with
    | (.ok (), disk) => (.ok (), { c with written := c.version }, disk)
    | (.error f, disk) => (.error f, c, disk)

/-- The node that the text of an address names. -/
def nodeOf (text : String) : Option String :=
  (Address.parse text).toOption.bind fun a => a.parameter? Address.nodeName

/-- Follows a change of the data at a path: the address takes the place of those of its node, and
without an address those of the node that the path names are gone. -/
def followData (c : Cache) (source : String) : Option Address → Cache
  | some a =>
    let key := a.serviceKey
    let c := match a.parameter? Address.nodeName with
      | some node => (c.removeWhere key fun text => nodeOf text == some node).2
      | none => c
    (c.insert key a).2
  | none =>
    match Key.split? source with
    | some (parent, node) => (c.removeWhere parent fun text => nodeOf text == some node).2
    | none => c

/-- Follows a change of the addresses below a key. -/
def followChildren (c : Cache) (source : String) (children : List Address) : Cache :=
  (c.replace source children).2

end Cache

end Switchboard
