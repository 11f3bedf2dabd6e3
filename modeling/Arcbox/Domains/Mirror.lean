import Mathlib
import Arcbox.Domains.TaggedRules

set_option autoImplicit false

/-!
# Container domains: publishes on a host address

The host listens on the address a port is published to and dials the guest's uplink at the same
port; there a mirror rule leads on to the container.  The dial and the rule name the protocol and
the port, not the address.
-/

namespace Arcbox.Domains

open Foundation List TaggedRules

/-- A published port.  The address is none where it is not an IPv4 one. -/
structure PortBindingInfo where
  hostIp : Option (BitVec 32)
  hostPort : BitVec 16
  containerPort : BitVec 16
  protocol : String
deriving DecidableEq, Repr

structure PinnedPublish where
  protocol : String
  hostPort : BitVec 16
  containerPort : BitVec 16
  containerIp : String
deriving DecidableEq, Repr

/-- A running container with its primary IPv4 address. -/
structure Running where
  id : String
  ip : String
  ports : List PortBindingInfo
deriving DecidableEq, Repr

def publishOwner : String := "arcbox-publish:"

variable (uplink : String) (b : PortBindingInfo)

def PortBindingInfo.pinned : Bool := b.hostIp.any (· ≠ 0) && b.hostPort ≠ 0

def PinnedPublish.before (a b : PinnedPublish) : Prop :=
  a.hostPort < b.hostPort ∨ a.hostPort = b.hostPort ∧ (a.protocol < b.protocol ∨
    a.protocol = b.protocol ∧ a.containerPort ≤ b.containerPort)

instance : DecidableRel PinnedPublish.before := fun _ _ => inferInstanceAs (Decidable (_ ∨ _))

def PortBindingInfo.publish (containerIp : String) : PinnedPublish :=
  ⟨b.protocol, b.hostPort, b.containerPort, containerIp⟩

/-- The bindings to a specific address.  Equal ones are neighbours once sorted. -/
def pinnedPublishes (c : Running) : List PinnedPublish :=
  (((c.ports.filter (·.pinned)).map (·.publish c.ip)).insertionSort PinnedPublish.before).dedup

def PinnedPublish.destination (p : PinnedPublish) : String :=
  p.containerIp ++ ":" ++ toString p.containerPort.toNat

def mirrorRule (id : String) (p : PinnedPublish) : NatRule :=
  .new publishOwner id ["-i", uplink, "-p", p.protocol, "--dport", toString p.hostPort.toNat]
    ["-j", "DNAT", "--to-destination", p.destination]

def mirrorRules (c : Running) : List NatRule := (pinnedPublishes c).map (mirrorRule uplink c.id)

/-- The start of a container, where every command works. -/
def mirror (s : TaggedRules × Chain) (c : Running) : TaggedRules × Chain :=
  (s.1.replace c.id (mirrorRules uplink c) [] s.2).2

def started (containers : List Running) : TaggedRules × Chain :=
  containers.foldl (mirror uplink) (⟨publishOwner, ∅⟩, [])

/-! ## From the listener to the container -/

structure Packet where
  interface : String
  protocol : String
  port : BitVec 16

inductive InboundProtocol where
  | tcp
  | udp
deriving DecidableEq, Repr

def InboundProtocol.name : InboundProtocol → String
  | .tcp => "tcp"
  | .udp => "udp"

def inboundProtocol (protocol : String) : InboundProtocol :=
  if protocol.toLower = "udp" then .udp else .tcp

/-- The host address and port, the port at the guest, which is the host's, and the protocol. -/
def plannedRule : Option (BitVec 32) × BitVec 16 × BitVec 16 × InboundProtocol :=
  (b.hostIp, b.hostPort, b.hostPort, inboundProtocol b.protocol)

/-- What the relay sends for a connection that the listener of `b` accepted. -/
def dialled : Packet := ⟨uplink, (plannedRule b).2.2.2.name, (plannedRule b).2.2.1⟩

def rewrite (p : Packet) : List String → Option String
  | "-i" :: interface :: rest => if interface = p.interface then rewrite p rest else none
  | "-p" :: protocol :: rest => if protocol = p.protocol then rewrite p rest else none
  | "--dport" :: port :: rest => if port = toString p.port.toNat then rewrite p rest else none
  | "-m" :: _ :: rest | "--comment" :: _ :: rest => rewrite p rest
  | ["-j", "DNAT", "--to-destination", destination] => some destination
  | _ => none

/-- The first rule that matches decides. -/
def rewritten (chain : Chain) (p : Packet) : Option String :=
  chain.findSome? fun rule => rewrite p rule.spec

theorem rewrite_mirrorRule (id : String) (q : PinnedPublish) (p : Packet) :
    rewrite p (mirrorRule uplink id q).spec =
      if uplink = p.interface ∧ q.protocol = p.protocol ∧
        toString q.hostPort.toNat = toString p.port.toNat then some q.destination else none := by
  simp [mirrorRule, NatRule.new, rewrite, ite_and]

section

variable {rules : List NatRule} {chain : Chain} {q : NatRule}

theorem mem_installing : q ∈ (installing rules [] chain).chain ↔ q ∈ rules ∨ q ∈ chain := by
  have hfailed : ∀ chain, (installing rules [] chain).failed = [] := by
    intro chain
    unfold installing
    induction rules generalizing chain with
    | nil => rfl
    | cons rule rules ih =>
      have hok : ∃ chain', rule.ensure .works chain = .ok chain' := by
        unfold NatRule.ensure
        dsimp only
        split <;> exact ⟨_, rfl⟩
      obtain ⟨chain', hok⟩ := hok
      rw [pass_ok hok]
      exact ih chain'
  by_cases hq : q ∈ rules
  · exact iff_of_true ((ensured_all (hfailed chain)).2 q hq) (.inl hq)
  · rw [← count_pos_iff, installing, pass_frame (fun h _ => ensure_frame h) hq, count_pos_iff]
    exact (or_iff_right hq).symm

end

theorem mem_started (uplink : String) (containers : List Running)
    (hids : (containers.map Running.id).Nodup) :
    (∀ id ∉ containers.map Running.id, (started uplink containers).1.heldFor id = []) ∧
      ∀ q, q ∈ (started uplink containers).2 ↔ ∃ c ∈ containers, q ∈ mirrorRules uplink c := by
  induction containers using reverseRecOn with
  | nil => exact ⟨fun _ _ => rfl, fun q => by simp [started]⟩
  | append_singleton containers c ih =>
    rw [map_append, nodup_append] at hids
    obtain ⟨hids, -, hnew⟩ := hids
    obtain ⟨hheld, hmem⟩ := ih hids
    have hstep : started uplink (containers ++ [c]) = mirror uplink (started uplink containers) c :=
      foldl_concat _ _ _ _
    have hnone : (started uplink containers).1.heldFor c.id = [] :=
      hheld c.id fun h => hnew _ h _ (mem_singleton_self _) rfl
    rw [hstep]
    refine ⟨fun id hid => ?_, fun q => ?_⟩
    · rw [map_append, mem_append, not_or] at hid
      have hne : id ≠ c.id := fun h => hid.2 (mem_singleton.mpr h)
      exact (heldFor_replace_of_ne hne).trans (hheld id hid.1)
    have hchain : (mirror uplink (started uplink containers) c).2 =
        (installing (mirrorRules uplink c) [] (started uplink containers).2).chain := by
      unfold mirror TaggedRules.replace removing stale
      rw [hnone]
      rfl
    rw [hchain, mem_installing, hmem]
    simp only [mem_append, mem_singleton, or_and_right, exists_or, exists_eq_left, or_comm]

theorem mem_mirrorRules {c : Running} {q : NatRule} : q ∈ mirrorRules uplink c ↔
    ∃ b ∈ c.ports, b.pinned = true ∧ mirrorRule uplink c.id (b.publish c.ip) = q := by
  simp [mirrorRules, pinnedPublishes, and_assoc]

/-- The rule of `b'` matches what is dialled for `b`. -/
def Answers (b b' : PortBindingInfo) : Prop :=
  b'.protocol = (inboundProtocol b.protocol).name ∧ b'.hostPort = b.hostPort

instance (b b' : PortBindingInfo) : Decidable (Answers b b') := inferInstanceAs (Decidable (_ ∧ _))

theorem rewrite_publish (id ip : String) (b b' : PortBindingInfo) :
    rewrite (dialled uplink b) (mirrorRule uplink id (b'.publish ip)).spec =
      if Answers b b' then some (ip ++ ":" ++ toString b'.containerPort.toNat) else none := by
  have hport : toString b'.hostPort.toNat = toString b.hostPort.toNat ↔ b'.hostPort = b.hostPort :=
    ⟨fun h => BitVec.eq_of_toNat_eq (Nat.repr_inj.mp h), fun h => by rw [h]⟩
  rw [rewrite_mirrorRule]
  simp only [dialled, plannedRule, PortBindingInfo.publish, hport, true_and]
  rfl

/-- What is dialled for a binding is what is dialled for one whose rule it meets. -/
theorem Answers.dialled_eq {b b' : PortBindingInfo} (h : Answers b b') :
    dialled uplink b' = dialled uplink b := by
  have hname : ∀ protocol : InboundProtocol, inboundProtocol protocol.name = protocol := by
    intro protocol
    cases protocol <;> decide +kernel
  unfold dialled plannedRule
  dsimp only
  rw [h.1, h.2, hname]

/-- A destination tells the address. -/
theorem ip_of_destination {ip ip' port port' : String} (hip : ':' ∉ ip.toList)
    (hip' : ':' ∉ ip'.toList) (h : ip ++ ":" ++ port = ip' ++ ":" ++ port') : ip = ip' := by
  have hbefore : ∀ {ip : String} (port : String), ':' ∉ ip.toList →
      (ip ++ ":" ++ port).toList.takeWhile (· ≠ ':') = ip.toList := by
    intro ip port hip
    have hplain : ∀ c ∈ ip.toList, decide (c ≠ ':') = true := fun c hc =>
      decide_eq_true fun heq => hip (heq ▸ hc)
    simp only [String.toList_append, append_assoc]
    rw [takeWhile_append_of_pos hplain]
    simp
  apply String.toList_inj.mp
  rw [← hbefore port hip, h, hbefore port' hip']

/-- Where a connection is led is the container of a binding whose rule matches. -/
theorem exists_of_rewritten {containers : List Running}
    (hids : (containers.map Running.id).Nodup) {b : PortBindingInfo} {destination : String}
    (h : rewritten (started uplink containers).2 (dialled uplink b) = some destination) :
    ∃ c ∈ containers, ∃ b' ∈ c.ports, b'.pinned = true ∧ Answers b b' ∧
      destination = c.ip ++ ":" ++ toString b'.containerPort.toNat := by
  obtain ⟨q, hq, hrewrite⟩ := exists_of_findSome?_eq_some h
  obtain ⟨c, hc, hq⟩ := ((mem_started uplink containers hids).2 q).mp hq
  obtain ⟨b', hb', hpinned, rfl⟩ := (mem_mirrorRules uplink).mp hq
  rw [rewrite_publish] at hrewrite
  split at hrewrite
  next hmatch => exact ⟨c, hc, b', hb', hpinned, hmatch, (Option.some.inj hrewrite).symm⟩
  · cases hrewrite

/-- A connection to the listener of a binding is led to the binding's container, for every binding to
a specific address, exactly if each such binding meets a rule of its own container and no rule of
another: the protocol the host forwards it as and the host port are published, on whatever specific
address, by that container alone. -/
theorem publishes_reach_their_container (uplink : String) (containers : List Running)
    (hids : (containers.map Running.id).Nodup) (hips : (containers.map Running.ip).Nodup)
    (hplain : ∀ c ∈ containers, ':' ∉ c.ip.toList) :
    (∀ c ∈ containers, ∀ b ∈ c.ports, b.pinned = true → ∃ port : BitVec 16,
      rewritten (started uplink containers).2 (dialled uplink b) =
        some (c.ip ++ ":" ++ toString port.toNat)) ↔
    ∀ c ∈ containers, ∀ b ∈ c.ports, b.pinned = true →
      (∃ b' ∈ c.ports, b'.pinned = true ∧ Answers b b') ∧
      ∀ c' ∈ containers, ∀ b' ∈ c'.ports, b'.pinned = true → Answers b b' → c' = c := by
  have hsame : ∀ c ∈ containers, ∀ c' ∈ containers, ∀ port port' : String,
      c.ip ++ ":" ++ port = c'.ip ++ ":" ++ port' → c = c' := fun c hc c' hc' port port' h =>
    inj_on_of_nodup_map hips hc hc' (ip_of_destination (hplain c hc) (hplain c' hc') h)
  constructor
  · intro hreach c hc b hb hpinned
    obtain ⟨port, hled⟩ := hreach c hc b hb hpinned
    constructor
    · obtain ⟨c', hc', b', hb', hpinned', hanswers, hdest⟩ := exists_of_rewritten uplink hids hled
      cases hsame c hc c' hc' _ _ hdest
      exact ⟨b', hb', hpinned', hanswers⟩
    · intro c' hc' b' hb' hpinned' hanswers
      obtain ⟨port', hled'⟩ := hreach c' hc' b' hb' hpinned'
      rw [hanswers.dialled_eq, hled] at hled'
      exact (hsame c hc c' hc' _ _ (Option.some.inj hled')).symm
  · intro hapart c hc b hb hpinned
    obtain ⟨⟨own, hown, hpinnedOwn, hanswersOwn⟩, honly⟩ := hapart c hc b hb hpinned
    cases hled : rewritten (started uplink containers).2 (dialled uplink b) with
    | none =>
      have hmissed := findSome?_eq_none_iff.mp hled _ (((mem_started uplink containers hids).2 _).mpr
        ⟨c, hc, (mem_mirrorRules uplink).mpr ⟨own, hown, hpinnedOwn, rfl⟩⟩)
      rw [rewrite_publish, if_pos hanswersOwn] at hmissed
      cases hmissed
    | some destination =>
      obtain ⟨c', hc', b', hb', hpinned', hanswers, rfl⟩ := exists_of_rewritten uplink hids hled
      cases honly c' hc' b' hb' hpinned' hanswers
      exact ⟨b'.containerPort, rfl⟩

/-- Two containers with port 8080 of the same protocol, each on an address of its own. -/
def onLoopback : Running := ⟨"web", "172.17.0.2", [⟨some 0x7f000001, 8080, 80, "tcp"⟩]⟩

def onNetwork (hostPort : BitVec 16) : Running :=
  ⟨"api", "172.17.0.3", [⟨some 0xc0a80105, hostPort, 80, "tcp"⟩]⟩

theorem publishes_reach_their_container_apart :
    ∃ port : BitVec 16, rewritten (started "eth0" [onLoopback, onNetwork 8081]).2
      (dialled "eth0" ⟨some 0x7f000001, 8080, 80, "tcp"⟩) =
        some ("172.17.0.2" ++ ":" ++ toString port.toNat) :=
  (publishes_reach_their_container "eth0" [onLoopback, onNetwork 8081] (by decide +kernel)
    (by decide +kernel) (by decide +kernel)).mpr (by decide +kernel) onLoopback mem_cons_self _
    mem_cons_self rfl

/-- The connection to the first container's listener is led to the second. -/
theorem same_port_aliased :
    rewritten (started "eth0" [onLoopback, onNetwork 8080]).2
      (dialled "eth0" ⟨some 0x7f000001, 8080, 80, "tcp"⟩) = some "172.17.0.3:80" := by
  decide +kernel

end Arcbox.Domains
