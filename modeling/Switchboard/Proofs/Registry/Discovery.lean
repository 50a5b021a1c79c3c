import Switchboard.Proofs.Registry.Children
import Switchboard.Proofs.Registry.Membership

/-!
# Who is discovered

An address that is registered in an empty tree is the only one there, for the nodes on the way to
it hold no data. It is discovered under the key of its service just if it stands right below the
key, which is to say that its node has a name without slashes, and if its text is read as an equal
address.
-/

namespace Switchboard

namespace Tree

/-- A put into an empty tree gives data to no path but its own. -/
theorem content?_put_empty {path key text : String} {data : Option String}
    (owner : Option SessionId) :
    ((∅ : Tree).put path data owner).1.content? key = some (some text) ↔
      key = path ∧ data = some text := by
  by_cases h : key = path
  · simp [content?, h, getElem?_put_self]
  · rcases getElem?_put_of_ne ∅ h data owner with hsame | ⟨-, hnew, -⟩
    · simp [content?, hsame, h]
    · simp [content?, hnew, h]

end Tree

namespace Address

/-- The node of an address that may be registered has a name. -/
theorem ne_empty_of_registrationNode {a : Address} {node : String}
    (h : a.registrationNode = .ok node) : node ≠ "" := by
  unfold registrationNode at h
  split at h
  · next name hname =>
    split at h
    · cases h
    · next hblank =>
      cases h
      rintro rfl
      exact hblank rfl
  · cases h

/-- An address is registered right below the key of its service. -/
theorem nodePath_of_registrationNode {a : Address} {node : String}
    (h : a.registrationNode = .ok node) :
    a.nodePath = .ok (Tree.childLead a.serviceKey ++ node) := by
  rw [nodePath, h, ← a.join_serviceKey (ne_empty_of_registrationNode h)]
  rfl

end Address

namespace Membership

/-- The addresses below a key are read from the data of the nodes right below it. -/
theorem mem_readChildren_iff {c : Coordinator} {key : String} {b : Address} :
    b ∈ readChildren c key ↔ ∃ name text, '/' ∉ name.toList ∧
      c.tree.content? (Tree.childLead key ++ name) = some (some text) ∧
        Address.parse text = .ok b := by
  have hparse : ∀ text, (Address.parse text).toOption = some b ↔ Address.parse text = .ok b := by
    intro text
    cases Address.parse text <;> simp [Except.toOption]
  simp only [readChildren, List.mem_filterMap, Prod.exists, Option.bind_eq_some_iff, hparse,
    Tree.mem_children_iff]
  constructor
  · rintro ⟨name, data, ⟨hname, hdata⟩, text, rfl, htext⟩
    exact ⟨name, text, hname, hdata, htext⟩
  · rintro ⟨name, text, hname, hdata, htext⟩
    exact ⟨name, some text, ⟨hname, hdata⟩, text, rfl, htext⟩

/-- A connected session is told of the addresses below a key. -/
theorem discover_of_connected {m : Membership} {c : Coordinator}
    (h : c.sessionState? m.session = some .connected) (key : String) :
    m.discover c key = .ok (readChildren c key) := by
  rw [discover, (Coordinator.checkSession_eq_ok_iff m.session).mpr h]
  rfl

/-- A connected session registers an address by a put right below the key of its service. -/
theorem register_of_connected {m : Membership} {c : Coordinator} (cache : Cache) {a : Address}
    {node : String} (hnode : a.registrationNode = .ok node)
    (hm : c.sessionState? m.session = some .connected) :
    (m.register c cache a).1 = .ok () ∧ (m.register c cache a).2.2.1.sessions = c.sessions ∧
      (m.register c cache a).2.2.1.tree =
        (c.tree.put (Tree.childLead a.serviceKey ++ node) (some a.text) (some m.session)).1 := by
  rw [m.register_of_nodePath cache (Address.nodePath_of_registrationNode hnode) hm]
  rcases c.put_cases m.session (Tree.childLead a.serviceKey ++ node) (some a.text) true with
    ⟨-, hput⟩ | ⟨hne, -⟩
  · simp only [hput, Coordinator.publish, if_true, and_self]
  · exact absurd hm hne

/-- In a tree that was empty, an address that may be registered is registered, and whoever asks for
its service is told of an equal one just if the name of its node holds no slash and its text is
read as an equal address. -/
theorem discover_register_iff {m other : Membership} {c : Coordinator} (cache : Cache)
    {a : Address} {node : String} (hnode : a.registrationNode = .ok node) (htree : c.tree = ∅)
    (hm : c.sessionState? m.session = some .connected)
    (hother : c.sessionState? other.session = some .connected) :
    (m.register c cache a).1 = .ok () ∧
      ∃ found, other.discover (m.register c cache a).2.2.1 a.serviceKey = .ok found ∧
        ((∃ b, b ∈ found ∧ (b == a) = true) ↔
          '/' ∉ node.toList ∧ ∃ b, Address.parse a.text = .ok b ∧ (b == a) = true) := by
  obtain ⟨hok, hsessions, hput⟩ := register_of_connected cache hnode hm
  have hconnected : (m.register c cache a).2.2.1.sessionState? other.session = some .connected := by
    rw [Coordinator.sessionState?, hsessions]
    exact hother
  -- of all nodes only the one of the address holds data
  have hdata : ∀ name text,
      (m.register c cache a).2.2.1.tree.content? (Tree.childLead a.serviceKey ++ name) =
        some (some text) ↔ name = node ∧ a.text = text := by
    intro name text
    have hpath : Tree.childLead a.serviceKey ++ name = Tree.childLead a.serviceKey ++ node ↔
        name = node := by
      rw [← String.toList_inj, String.toList_append, String.toList_append, List.append_right_inj,
        String.toList_inj]
    rw [hput, htree, Tree.content?_put_empty, hpath, Option.some_inj]
  refine ⟨hok, _, discover_of_connected hconnected _, ?_⟩
  constructor
  · rintro ⟨b, hb, hsame⟩
    obtain ⟨name, text, hname, hcontent, hparse⟩ := mem_readChildren_iff.mp hb
    obtain ⟨rfl, rfl⟩ := (hdata name text).mp hcontent
    exact ⟨hname, b, hparse, hsame⟩
  · rintro ⟨hname, b, hparse, hsame⟩
    exact ⟨b, mem_readChildren_iff.mpr
      ⟨node, a.text, hname, (hdata node a.text).mpr ⟨rfl, rfl⟩, hparse⟩, hsame⟩

/-- Under a key with two slashes in a row an address is discovered, and one whose node begins with
a slash is not. -/
theorem discover_register_of_slashes :
    let c := ({} : Coordinator).openSession.2.openSession.2
    let m : Membership := { session := 1 }
    let other : Membership := { session := 2 }
    let a := ({ host := some "h", port := 1, path := some "/g//s%41/" } : Address).withParameter
      Address.nodeName "n 1"
    let b := a.withParameter Address.nodeName "/n"
    c.tree = ∅ ∧ c.sessionState? m.session = some .connected ∧
      c.sessionState? other.session = some .connected ∧ a.serviceKey = "/g//sA" ∧
      (a.registrationNode = .ok "n 1" ∧
        ∃ found, other.discover (m.register c {} a).2.2.1 a.serviceKey = .ok found ∧
          ∃ x, x ∈ found ∧ (x == a) = true) ∧
      b.registrationNode = .ok "/n" ∧
        ∃ found, other.discover (m.register c {} b).2.2.1 b.serviceKey = .ok found ∧
          ¬ ∃ x, x ∈ found ∧ (x == b) = true := by
  intro c m other a b
  have htree : c.tree = ∅ := rfl
  have hm : c.sessionState? m.session = some .connected := by decide +kernel
  have hother : c.sessionState? other.session = some .connected := by decide +kernel
  have ha : a.registrationNode = .ok "n 1" := rfl
  have hb : b.registrationNode = .ok "/n" := rfl
  obtain ⟨-, found, hfound, hiff⟩ := discover_register_iff {} ha htree hm hother
  obtain ⟨-, found', hfound', hiff'⟩ := discover_register_iff {} hb htree hm hother
  refine ⟨htree, hm, hother, by decide +kernel, ⟨ha, found, hfound, hiff.mpr ⟨by decide, ?_⟩⟩,
    hb, found', hfound', fun h => ?_⟩
  · have htext : a.text = "h:1//g//s%41/?nodeName=n 1" := by decide +kernel
    rw [htext]
    exact ⟨a, rfl, Address.beq_self a⟩
  · exact (hiff'.mp h).1 (by decide)

end Membership

end Switchboard
