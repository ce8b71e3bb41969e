import EtherDevice.Ipacm.Neighbor
import EtherDevice.Lib.Transition

/-!
# What the neighbour cache remembers

The rows of the neighbour cache as functions of the events so far: one row for each client, with
the interface of the latest event that gave it one and the address of the latest IPv4 event. The
events that are posted again, and those for clients that come back, follow from the rows.

An arrival is an event together with what it meets, the interface table included, which other
parts of the daemon change too.
-/

namespace EtherDevice.Ipacm.Neighbor

open Lib IfaceTable

/-! ## What an event says -/

theorem EventData.hasAddr_v4 {data : EventData} (h : data.iptype = .v4) :
    data.HasAddr ↔ data.ipv4Addr ≠ 0 := by
  unfold HasAddr
  rw [if_pos h]

theorem EventData.hasAddr_v6 {data : EventData} (h : data.iptype ≠ .v4) :
    data.HasAddr ↔ data.ipv6Addr ≠ 0 := by
  unfold HasAddr
  rw [if_neg h]

def Event.SetsIface : Event → Prop
  | clientAdd .. => True
  | neigh _ data => data.iptype = .v4 ↔ data.HasAddr

def Event.Reconnects : Event → Prop
  | clientAdd .. => True
  | neigh _ data => data.iptype ≠ .v4 ∧ ¬ data.HasAddr

def Event.v4 : Event → Option (BitVec 32)
  | clientAdd .. => none
  | neigh _ data => if data.iptype = .v4 ∧ data.ipv4Addr ≠ 0 then some data.ipv4Addr else none

instance : DecidablePred Event.SetsIface
  | .clientAdd .. => isTrue trivial
  | .neigh .. => inferInstanceAs (Decidable (_ ↔ _))
namespace Cache

variable (s : Cache) (env : Env)

def OnBridge (event : Event) : Prop :=
  (s.ifaceIpaIndexQuery env event.ifIndex).2.isBridge env
    (s.ifaceIpaIndexQuery env event.ifIndex).1

instance (event : Event) : Decidable (s.OnBridge env event) :=
  inferInstanceAs (Decidable (Cfg.isBridge _ _ _))

end Cache

/-! ## What one event does to the rows -/

namespace Cache

variable {s : Cache} {env : Env} {event : Event} {i : Nat} {client : Client} {macAddr : Nat}

theorem findClient_some (h : s.findClient macAddr = some (i, client)) :
    i < s.numNeighborClient ∧ s.neighborClient i = some client ∧ client.macAddr = macAddr := by
  obtain ⟨j, hfirst, hrow⟩ := Option.bind_eq_some_iff.mp h
  obtain ⟨client', hclient, heq⟩ := Option.map_eq_some_iff.mp hrow
  obtain ⟨hlt, hmac, -⟩ := firstBelow_eq_some hfirst
  simp_all

theorem findClient_none (h : s.findClient macAddr = none) (hlt : i < s.numNeighborClient)
    (hrow : s.neighborClient i = some client) : client.macAddr ≠ macAddr := by
  intro hmac
  unfold findClient at h
  cases hfirst : firstBelow (fun row => row.any fun client => decide (client.macAddr = macAddr))
      s.neighborClient s.numNeighborClient with
  | none =>
    have hnot := List.find?_range_eq_none.mp hfirst i hlt
    grind
  | some j =>
    obtain ⟨-, hany, -⟩ := firstBelow_eq_some hfirst
    simp_all

/-- The row of a client after an event. -/
structure Follows (client client' : Client) (onBridge : Prop) (event : Event) : Prop where
  macAddr : client'.macAddr = client.macAddr
  ifaceIndex : client'.ifaceIndex = client.ifaceIndex ∧ (onBridge ∨ ¬ event.SetsIface) ∨
    client'.ifaceIndex = event.ifIndex ∧ ¬ onBridge ∧ event.SetsIface
  v4Addr : client'.v4Addr = event.v4.getD client.v4Addr

@[simp] theorem neighborClient_logIface (s : Cache) (env : Env) (i : Int) :
    (s.logIface env i).neighborClient = s.neighborClient := rfl

@[simp] theorem numNeighborClient_logIface (s : Cache) (env : Env) (i : Int) :
    (s.logIface env i).numNeighborClient = s.numNeighborClient := rfl

@[simp] theorem posts_logIface (s : Cache) (env : Env) (i : Int) :
    (s.logIface env i).posts = s.posts := rfl

theorem update_row (hrow : s.neighborClient i = some client) :
    Function.update s.neighborClient i (some client) = s.neighborClient := by
  rw [← hrow, Function.update_eq_self]

def RowFollows (s s' : Cache) (i : Nat) (client : Client) (onBridge : Prop) (event : Event) :
    Prop :=
  s'.numNeighborClient = s.numNeighborClient ∧
    ∃ client', s'.neighborClient = Function.update s.neighborClient i (some client') ∧
      Follows client client' onBridge event

theorem reconnect_follows {ifIndex idx : Int} (hrow : s.neighborClient i = some client)
    (hsets : event.SetsIface) (hindex : event.ifIndex = ifIndex) (hv4 : event.v4 = none) :
    RowFollows s (s.reconnect env i client ifIndex idx) i client (s.isBridge env idx) event := by
  subst hindex
  have hnot : ¬ s.isBridge env idx →
      Follows client { client with ifaceIndex := event.ifIndex } (s.isBridge env idx) event :=
    fun hbridge => ⟨rfl, .inr ⟨rfl, hbridge, hsets⟩, by rw [hv4, Option.getD_none]⟩
  unfold reconnect
  dsimp only
  split
  · rename_i hbridge
    refine ⟨rfl, client, (update_row hrow).symm, rfl, .inl ⟨rfl, .inl hbridge⟩, ?_⟩
    rw [hv4, Option.getD_none]
  rename_i hbridge
  split
  · exact ⟨rfl, _, rfl, hnot hbridge⟩
  split
  · exact ⟨rfl, _, rfl, hnot hbridge⟩
  · exact ⟨rfl, _, rfl, hnot hbridge⟩

def RowAdded (s s' : Cache) (onBridge : Prop) (event : Event) : Prop :=
  s'.neighborClient = s.neighborClient ∧ s'.numNeighborClient = s.numNeighborClient ∨
    s.numNeighborClient < maxNumNeighborClients ∧ ¬ onBridge ∧ event.SetsIface ∧
    s'.numNeighborClient = s.numNeighborClient + 1 ∧
    ∃ client, s'.neighborClient =
        Function.update s.neighborClient s.numNeighborClient (some client) ∧
      client.macAddr = event.macAddr ∧ client.ifaceIndex = event.ifIndex ∧
      client.v4Addr = event.v4.getD 0

theorem addClient_added {onBridge : Prop} (hbridge : ¬ onBridge) (hsets : event.SetsIface)
    (hmac : client.macAddr = event.macAddr) (hindex : client.ifaceIndex = event.ifIndex)
    (hv4 : client.v4Addr = event.v4.getD 0) : RowAdded s (s.addClient client) onBridge event := by
  unfold addClient
  split
  · rename_i hroom
    exact .inr ⟨hroom, hbridge, hsets, rfl, client, rfl, hmac, hindex, hv4⟩
  · exact .inl ⟨rfl, rfl⟩

variable {isNew : Bool} {data : EventData} {idx : Int}

theorem handleV4_rows (hfam : data.iptype = .v4) (haddr : data.ipv4Addr ≠ 0) :
    (∀ i client, s.findClient data.macAddr = some (i, client) →
      RowFollows s (s.handleV4 env isNew data idx) i client (s.isBridge env idx)
        (.neigh isNew data)) ∧
    (s.findClient data.macAddr = none →
      RowAdded s (s.handleV4 env isNew data idx) (s.isBridge env idx) (.neigh isNew data)) := by
  have hv4 : (Event.neigh isNew data).v4 = some data.ipv4Addr := if_pos ⟨hfam, haddr⟩
  have hsets : (Event.neigh isNew data).SetsIface :=
    ⟨fun _ => (EventData.hasAddr_v4 hfam).mpr haddr, fun _ => hfam⟩
  constructor
  · intro i client hfind
    have hbridged : (s.touchRow idx).findClient data.macAddr = some (i, client) := hfind
    have hposted : (Cache.touchRow ((s.touchRow idx).postEvt (data.post isNew)) idx).findClient
        data.macAddr = some (i, client) := hfind
    unfold handleV4
    dsimp only
    split
    · rename_i hbridge
      rw [hbridged]
      refine ⟨rfl, _, rfl, rfl, .inl ⟨rfl, .inl hbridge⟩, ?_⟩
      rw [hv4, Option.getD_some]
    · rename_i hbridge
      rw [hposted]
      refine ⟨rfl, _, rfl, rfl, .inr ⟨rfl, hbridge, hsets⟩, ?_⟩
      rw [hv4, Option.getD_some]
  · intro hfind
    have hbridged : (s.touchRow idx).findClient data.macAddr = none := hfind
    have hposted : (Cache.touchRow ((s.touchRow idx).postEvt (data.post isNew)) idx).findClient
        data.macAddr = none := hfind
    unfold handleV4
    dsimp only
    split
    · rw [hbridged]
      exact .inl ⟨rfl, rfl⟩
    · rename_i hbridge
      rw [hposted]
      refine addClient_added hbridge hsets rfl rfl ?_
      rw [hv4, Option.getD_some]

theorem handleNoAddr_rows (hfam : data.iptype ≠ .v4) (haddr : ¬ data.HasAddr) :
    (∀ i client, s.findClient data.macAddr = some (i, client) →
      RowFollows s (s.handleNoAddr env data idx) i client (s.isBridge env idx)
        (.neigh isNew data)) ∧
    (s.findClient data.macAddr = none →
      RowAdded s (s.handleNoAddr env data idx) (s.isBridge env idx) (.neigh isNew data)) := by
  have hv4 : (Event.neigh isNew data).v4 = none := if_neg fun h => hfam h.1
  have hsets : (Event.neigh isNew data).SetsIface :=
    ⟨fun h => absurd h hfam, fun h => absurd h haddr⟩
  constructor
  · intro i client hfind
    unfold handleNoAddr
    rw [hfind]
    exact reconnect_follows (findClient_some hfind).2.1 hsets rfl hv4
  · intro hfind
    unfold handleNoAddr
    rw [hfind]
    dsimp only
    split
    · exact .inl ⟨rfl, rfl⟩
    · rename_i hbridge
      refine addClient_added hbridge hsets rfl rfl ?_
      rw [hv4, Option.getD_none]

theorem handleV6_rows (s : Cache) (env : Env) (isNew : Bool) (data : EventData) (idx : Int) :
    (s.handleV6 env isNew data idx).neighborClient = s.neighborClient ∧
      (s.handleV6 env isNew data idx).numNeighborClient = s.numNeighborClient := by
  unfold handleV6
  dsimp only
  split
  · split
    · exact ⟨rfl, rfl⟩
    · exact ⟨rfl, rfl⟩
  · exact ⟨rfl, rfl⟩

theorem rowFollows_same {s' : Cache} {onBridge : Prop} (hrow : s.neighborClient i = some client)
    (hrows : s'.neighborClient = s.neighborClient)
    (hnum : s'.numNeighborClient = s.numNeighborClient) (hsets : ¬ event.SetsIface)
    (hv4 : event.v4 = none) : RowFollows s s' i client onBridge event := by
  refine ⟨hnum, client, ?_, rfl, .inl ⟨rfl, .inr hsets⟩, ?_⟩
  · rw [hrows, update_row hrow]
  · rw [hv4, Option.getD_none]

theorem eventCallback_rows (s : Cache) (env : Env) (event : Event) :
    (∀ i client, s.findClient event.macAddr = some (i, client) →
      RowFollows s (s.eventCallback env event) i client (s.OnBridge env event) event) ∧
    (s.findClient event.macAddr = none →
      RowAdded s (s.eventCallback env event) (s.OnBridge env event) event) := by
  unfold eventCallback OnBridge
  generalize s.ifaceIpaIndexQuery env event.ifIndex = r
  obtain ⟨idx, cfg⟩ := r
  cases event with
  | clientAdd ifIndex attribs unset =>
    dsimp only
    constructor
    · intro i client hfind
      have hsame : Cache.findClient { s with toCfg := cfg } (clientMacAddr unset attribs) =
          some (i, client) := hfind
      rw [hsame]
      exact reconnect_follows (s := { s with toCfg := cfg }) (findClient_some hfind).2.1 trivial
        rfl rfl
    · intro hfind
      have hsame : Cache.findClient { s with toCfg := cfg } (clientMacAddr unset attribs) =
          none := hfind
      rw [hsame]
      exact .inl ⟨rfl, rfl⟩
  | neigh isNew data =>
    dsimp only
    split
    · rename_i hfam
      split
      · rename_i haddr
        exact handleV4_rows (s := { s with toCfg := cfg }) hfam haddr
      · rename_i haddr
        have hsets : ¬ (Event.neigh isNew data).SetsIface := fun h =>
          haddr ((EventData.hasAddr_v4 hfam).mp (h.mp hfam))
        refine ⟨fun i client hfind => rowFollows_same (findClient_some hfind).2.1 rfl rfl hsets ?_,
          fun _ => .inl ⟨rfl, rfl⟩⟩
        exact if_neg fun h => haddr h.2
    · rename_i hfam
      split
      · rename_i haddr
        have hsets : ¬ (Event.neigh isNew data).SetsIface := fun h =>
          hfam (h.mpr ((EventData.hasAddr_v6 hfam).mpr haddr))
        obtain ⟨hrows, hnum⟩ := handleV6_rows { s with toCfg := cfg } env isNew data idx
        refine ⟨fun i client hfind => rowFollows_same (findClient_some hfind).2.1 hrows hnum
          hsets ?_, fun _ => .inl ⟨hrows, hnum⟩⟩
        exact if_neg fun h => hfam h.1
      · rename_i haddr
        exact handleNoAddr_rows (s := { s with toCfg := cfg }) hfam fun h =>
          haddr ((EventData.hasAddr_v6 hfam).mp h)

end Cache

/-! ## What one event posts -/

def Client.announcement (client : Client) (ifIndex : Int) : Post where
  add := true
  ifIndex := ifIndex
  macAddr := client.macAddr
  iptype := .v4
  ipv4Addr := client.v4Addr
  ipv6Addr := none

namespace Cache

variable {s : Cache} {env : Env} {event : Event} {i : Nat} {client : Client} {isNew : Bool}
  {data : EventData} {idx : Int}

theorem reconnect_bridge {ifIndex : Int} (hbridge : s.isBridge env idx) :
    s.reconnect env i client ifIndex idx = s.touchRow idx := by
  unfold reconnect
  rw [if_pos hbridge]

theorem reconnect_posts (s : Cache) (env : Env) (i : Nat) (client : Client) (ifIndex idx : Int) :
    (s.reconnect env i client ifIndex idx).posts = s.posts ∨
      client.v4Addr ≠ 0 ∧ (s.reconnect env i client ifIndex idx).posts =
        s.posts ++ [client.announcement ifIndex] := by
  unfold reconnect
  dsimp only
  split
  · exact .inl rfl
  split
  · exact .inl rfl
  split
  · rename_i haddr
    exact .inr ⟨haddr, rfl⟩
  · exact .inl rfl

theorem addClient_posts (s : Cache) (client : Client) : (s.addClient client).posts = s.posts := by
  unfold addClient
  split
  · rfl
  · rfl

theorem eventCallback_posts_bridge (hbridge : s.OnBridge env (.neigh isNew data))
    (hfind : s.findClient data.macAddr = some (i, client)) :
    (s.eventCallback env (.neigh isNew data)).posts =
      if data.HasAddr then
        s.posts ++ [EventData.post { data with ifIndex := client.ifaceIndex } isNew]
      else s.posts := by
  unfold OnBridge at hbridge
  unfold eventCallback
  generalize s.ifaceIpaIndexQuery env (Event.neigh isNew data).ifIndex = r at hbridge
  obtain ⟨idx, cfg⟩ := r
  have hstill : Cache.findClient { s with toCfg := cfg } data.macAddr = some (i, client) := hfind
  have htouched : (Cache.touchRow { s with toCfg := cfg } idx).findClient data.macAddr =
      some (i, client) := hfind
  have hrow : Cfg.isBridge cfg env idx := hbridge
  dsimp only
  by_cases hfam : data.iptype = .v4
  · rw [if_pos hfam]
    by_cases haddr : data.ipv4Addr ≠ 0
    · rw [if_pos haddr, if_pos ((EventData.hasAddr_v4 hfam).mpr haddr)]
      unfold handleV4
      rw [if_pos hrow, htouched]
      rfl
    · rw [if_neg haddr, if_neg fun h => haddr ((EventData.hasAddr_v4 hfam).mp h)]
  · rw [if_neg hfam]
    by_cases haddr : data.ipv6Addr ≠ 0
    · rw [if_pos haddr, if_pos ((EventData.hasAddr_v6 hfam).mpr haddr)]
      unfold handleV6
      rw [if_pos hrow, htouched]
      rfl
    · rw [if_neg haddr, if_neg fun h => haddr ((EventData.hasAddr_v6 hfam).mp h)]
      unfold handleNoAddr
      rw [hstill]
      dsimp only
      rw [reconnect_bridge hrow]
      rfl

theorem eventCallback_posts_reconnects (hback : event.Reconnects) :
    (s.eventCallback env event).posts = s.posts ∨
      ∃ i client, s.findClient event.macAddr = some (i, client) ∧ client.v4Addr ≠ 0 ∧
        (s.eventCallback env event).posts = s.posts ++ [client.announcement event.ifIndex] := by
  unfold eventCallback
  generalize s.ifaceIpaIndexQuery env event.ifIndex = r
  obtain ⟨idx, cfg⟩ := r
  cases event with
  | clientAdd ifIndex attribs unset =>
    dsimp only
    split
    · exact .inl rfl
    · rename_i i client hfind
      exact (reconnect_posts { s with toCfg := cfg } env i client ifIndex idx).imp_right
        fun h => ⟨i, client, hfind, h⟩
  | neigh isNew data =>
    obtain ⟨hfam, haddr⟩ := hback
    dsimp only
    rw [if_neg hfam, if_neg fun h => haddr ((EventData.hasAddr_v6 hfam).mpr h)]
    unfold handleNoAddr
    split
    · rename_i i client hfind
      exact (reconnect_posts { s with toCfg := cfg } env i client data.ifIndex idx).imp_right
        fun h => ⟨i, client, hfind, h⟩
    · dsimp only
      split
      · exact .inl rfl
      · exact .inl (addClient_posts _ _)

end Cache

/-! ## Runs -/

structure Seen where
  event : Event
  onBridge : Bool

def Seen.iface (macAddr : Nat) (seen : Seen) : Option Int :=
  if seen.event.macAddr = macAddr ∧ seen.onBridge = false ∧ seen.event.SetsIface then
    some seen.event.ifIndex
  else none

def Seen.v4 (macAddr : Nat) (seen : Seen) : Option (BitVec 32) :=
  if seen.event.macAddr = macAddr then seen.event.v4 else none

def Seen.owner (addr : BitVec 32) (seen : Seen) : Option (Bool × Nat) :=
  match seen.event with
  | .clientAdd .. => none
  | .neigh isNew data =>
    if seen.event.v4 = some addr then some (isNew, data.macAddr) else none

/-- An event with the configuration and the kernel that it meets. -/
structure Arrival where
  cfg : Cfg
  env : Env
  event : Event

/-- The cache with what it has seen, the latest event first. -/
structure Run extends Cache where
  seen : List Seen := []

namespace Run

variable (s : Run) (a : Arrival)

def atArrival : Cache := { s.toCache with toCfg := a.cfg }

def next : Run where
  toCache := (s.atArrival a).eventCallback a.env a.event
  seen := ⟨a.event, decide ((s.atArrival a).OnBridge a.env a.event)⟩ :: s.seen

def ifaceOf (macAddr : Nat) : Option Int := s.seen.findSome? (Seen.iface macAddr)

/-- The address of the latest IPv4 event of the client. -/
def v4Of (macAddr : Nat) : Option (BitVec 32) := s.seen.findSome? (Seen.v4 macAddr)

def ownerOf (addr : BitVec 32) : Option (Bool × Nat) := s.seen.findSome? (Seen.owner addr)

/-- The rows in use are those below the count, and there is room for them. No two are of one
client. -/
structure OneRowEach : Prop where
  count : ∀ i, (s.neighborClient i).isSome = true ↔ i < s.numNeighborClient
  room : s.numNeighborClient ≤ maxNumNeighborClients
  distinct : ∀ i j client client', s.neighborClient i = some client →
    s.neighborClient j = some client' → client.macAddr = client'.macAddr → i = j

/-- An event of a cached client on the bridge is posted again once, with the interface of the
client. -/
def PostsEach : Prop :=
  ∀ isNew data i client, a.event = .neigh isNew data → (s.atArrival a).OnBridge a.env a.event →
    s.neighborClient i = some client → client.macAddr = data.macAddr →
    s.ifaceOf data.macAddr = some client.ifaceIndex ∧ (s.next a).posts =
      s.posts ++ [EventData.post { data with ifIndex := client.ifaceIndex } isNew]

/-- The same, of an event that has an address. One without is not posted again. -/
def PostsAddressed : Prop :=
  ∀ isNew data i client, a.event = .neigh isNew data → (s.atArrival a).OnBridge a.env a.event →
    s.neighborClient i = some client → client.macAddr = data.macAddr →
    s.ifaceOf data.macAddr = some client.ifaceIndex ∧ (s.next a).posts =
      if data.HasAddr then
        s.posts ++ [EventData.post { data with ifIndex := client.ifaceIndex } isNew]
      else s.posts

/-- A client that comes back is announced with the address of its latest IPv4 event, or not at
all. -/
def AnnouncesLatest : Prop :=
  a.event.Reconnects → (s.next a).posts = s.posts ∨
    ∃ i client, s.neighborClient i = some client ∧ client.macAddr = a.event.macAddr ∧
      s.v4Of client.macAddr = some client.v4Addr ∧
      (s.next a).posts = s.posts ++ [client.announcement a.event.ifIndex]

/-- That address was last reported as new, and of this client. -/
def AnnouncesCurrent : Prop :=
  s.AnnouncesLatest a ∧ ∀ client : Client, a.event.Reconnects →
    (s.next a).posts = s.posts ++ [client.announcement a.event.ifIndex] →
    s.ownerOf client.v4Addr = some (true, client.macAddr)

structure Tracked : Prop extends s.OneRowEach where
  iface : ∀ i client, s.neighborClient i = some client →
    s.ifaceOf client.macAddr = some client.ifaceIndex
  v4 : ∀ i client, s.neighborClient i = some client → client.v4Addr ≠ 0 →
    s.v4Of client.macAddr = some client.v4Addr

variable {s a} {macAddr : Nat}

theorem ifaceOf_next_other (h : a.event.macAddr ≠ macAddr) :
    (s.next a).ifaceOf macAddr = s.ifaceOf macAddr := by
  simp [ifaceOf, next, Seen.iface, h]

theorem ifaceOf_next_keep
    (h : (s.atArrival a).OnBridge a.env a.event ∨ ¬ a.event.SetsIface) :
    (s.next a).ifaceOf macAddr = s.ifaceOf macAddr := by
  unfold ifaceOf next
  rw [List.findSome?_cons, Seen.iface, if_neg]
  rintro ⟨-, hbridge, hsets⟩
  exact h.elim (of_decide_eq_false hbridge) fun hnot => hnot hsets

theorem ifaceOf_next_set (hmac : a.event.macAddr = macAddr)
    (hbridge : ¬ (s.atArrival a).OnBridge a.env a.event) (hsets : a.event.SetsIface) :
    (s.next a).ifaceOf macAddr = some a.event.ifIndex := by
  simp [ifaceOf, next, Seen.iface, hmac, hbridge, hsets]

theorem v4Of_next_other (h : a.event.macAddr ≠ macAddr) :
    (s.next a).v4Of macAddr = s.v4Of macAddr := by
  simp [v4Of, next, Seen.v4, h]

theorem v4Of_next_self : (s.next a).v4Of a.event.macAddr =
    a.event.v4.or (s.v4Of a.event.macAddr) := by
  unfold v4Of next
  rw [List.findSome?_cons, Seen.v4, if_pos rfl]
  cases a.event.v4 with
  | none => rfl
  | some addr => rfl

theorem OneRowEach.findClient {i : Nat} {client : Client} (h : s.OneRowEach)
    (hrow : s.neighborClient i = some client) :
    s.toCache.findClient client.macAddr = some (i, client) := by
  cases hfind : s.toCache.findClient client.macAddr with
  | none =>
    have hlt := (h.count i).mp (hrow ▸ rfl)
    exact absurd rfl (Cache.findClient_none hfind hlt hrow)
  | some r =>
    obtain ⟨j, client'⟩ := r
    obtain ⟨-, hrow', hmac⟩ := Cache.findClient_some hfind
    obtain rfl := h.distinct j i client' client hrow' hrow hmac
    simp_all

theorem Tracked.other (h : s.Tracked) {i : Nat} {client : Client}
    (hrow : s.neighborClient i = some client) (hmac : a.event.macAddr ≠ client.macAddr) :
    (s.next a).ifaceOf client.macAddr = some client.ifaceIndex ∧
      (client.v4Addr ≠ 0 → (s.next a).v4Of client.macAddr = some client.v4Addr) := by
  rw [ifaceOf_next_other hmac, v4Of_next_other hmac]
  exact ⟨h.iface i client hrow, h.v4 i client hrow⟩

theorem Tracked.next_new (h : s.Tracked)
    (hfind : s.toCache.findClient a.event.macAddr = none) : (s.next a).Tracked := by
  have hother : ∀ i client, s.neighborClient i = some client →
      a.event.macAddr ≠ client.macAddr := fun i client hrow =>
    (Cache.findClient_none hfind ((h.count i).mp (hrow ▸ rfl)) hrow).symm
  rcases (Cache.eventCallback_rows (s.atArrival a) a.env a.event).2 hfind with
    ⟨hrows, hnum⟩ | ⟨hroom, hbridge, hsets, hnum, new, hrows, hmac, hindex, hv4⟩
  · have hrows : (s.next a).neighborClient = s.neighborClient := hrows
    have hnum : (s.next a).numNeighborClient = s.numNeighborClient := hnum
    refine ⟨⟨?_, ?_, ?_⟩, ?_, ?_⟩
    · rw [hrows, hnum]
      exact h.count
    · rw [hnum]
      exact h.room
    · rw [hrows]
      exact h.distinct
    · intro i client hrow
      rw [hrows] at hrow
      exact (h.other hrow (hother i client hrow)).1
    · intro i client hrow
      rw [hrows] at hrow
      exact (h.other hrow (hother i client hrow)).2
  · have hrows : (s.next a).neighborClient =
        Function.update s.neighborClient s.numNeighborClient (some new) := hrows
    have hnum : (s.next a).numNeighborClient = s.numNeighborClient + 1 := hnum
    -- a row is the new one, or one from before
    have hcase : ∀ i client, (s.next a).neighborClient i = some client →
        i = s.numNeighborClient ∧ client = new ∨
          i ≠ s.numNeighborClient ∧ s.neighborClient i = some client := by
      intro i client hrow
      rw [hrows] at hrow
      by_cases hi : i = s.numNeighborClient
      · simp_all
      simp_all
    refine ⟨⟨?_, ?_, ?_⟩, ?_, ?_⟩
    · intro i
      rw [hrows, hnum]
      by_cases hi : i = s.numNeighborClient
      · simp [hi]
      · rw [Function.update_of_ne hi, h.count i]
        omega
    · rw [hnum]
      exact hroom
    · intro i j client client' hi hj hsame
      rcases hcase i client hi with ⟨rfl, rfl⟩ | ⟨hine, hrow⟩
      · grind
      · rcases hcase j client' hj with ⟨rfl, rfl⟩ | ⟨hjne, hrow'⟩
        · exact absurd (hmac.symm.trans hsame.symm) (hother i client hrow)
        · exact h.distinct i j client client' hrow hrow' hsame
    · intro i client hrow
      rcases hcase i client hrow with ⟨-, rfl⟩ | ⟨-, hrow⟩
      · simp_all [ifaceOf_next_set]
      · exact (h.other hrow (hother i client hrow)).1
    · intro i client hrow haddr
      rcases hcase i client hrow with ⟨-, rfl⟩ | ⟨-, hrow⟩
      · rw [hmac, v4Of_next_self]
        cases hevent : a.event.v4 with
        | none =>
          simp_all
        | some addr =>
          simp [hevent, hv4]
      · exact (h.other hrow (hother i client hrow)).2 haddr

theorem Tracked.next_cached (h : s.Tracked) {i : Nat} {client : Client}
    (hfind : s.toCache.findClient a.event.macAddr = some (i, client)) : (s.next a).Tracked := by
  obtain ⟨hlt, hrow, hevent⟩ := Cache.findClient_some hfind
  obtain ⟨hnum, new, hrows, hmac, hiface, hv4⟩ :=
    (Cache.eventCallback_rows (s.atArrival a) a.env a.event).1 i client hfind
  have hrows : (s.next a).neighborClient = Function.update s.neighborClient i (some new) := hrows
  have hnum : (s.next a).numNeighborClient = s.numNeighborClient := hnum
  have hcase : ∀ j client', (s.next a).neighborClient j = some client' →
      j = i ∧ client' = new ∨ j ≠ i ∧ s.neighborClient j = some client' := by
    intro j client' hj
    rw [hrows] at hj
    by_cases hji : j = i
    · simp_all
    simp_all
  have hother : ∀ j client', j ≠ i → s.neighborClient j = some client' →
      a.event.macAddr ≠ client'.macAddr := by
    intro j client' hji hj hsame
    exact hji (h.distinct j i client' client hj hrow (hsame.symm.trans hevent.symm))
  refine ⟨⟨?_, ?_, ?_⟩, ?_, ?_⟩
  · intro j
    rw [hrows, hnum]
    by_cases hji : j = i
    · simp [hji, hlt]
    simp [hji, h.count]
  · rw [hnum]
    exact h.room
  · intro j k client₁ client₂ hj hk hsame
    rcases hcase j client₁ hj with ⟨rfl, rfl⟩ | ⟨hji, hrow₁⟩
    · grind
    · rcases hcase k client₂ hk with ⟨rfl, rfl⟩ | ⟨hki, hrow₂⟩
      · exact h.distinct j k client₁ client hrow₁ hrow (hsame.trans hmac)
      · exact h.distinct j k client₁ client₂ hrow₁ hrow₂ hsame
  · intro j client' hj
    rcases hcase j client' hj with ⟨rfl, rfl⟩ | ⟨hji, hrow'⟩
    · rw [hmac]
      rcases hiface with ⟨hsame, hkeep⟩ | ⟨hindex, hbridge, hsets⟩
      · rw [hsame, ifaceOf_next_keep hkeep]
        exact h.iface j client hrow
      simp_all [ifaceOf_next_set]
    · exact (h.other hrow' (hother j client' hji hrow')).1
  · intro j client' hj haddr
    rcases hcase j client' hj with ⟨rfl, rfl⟩ | ⟨hji, hrow'⟩
    · rw [hmac, hevent, v4Of_next_self]
      cases hreport : a.event.v4 with
      | none =>
        rw [hreport, Option.getD_none] at hv4
        rw [hv4] at haddr ⊢
        rw [← hevent]
        exact h.v4 j client hrow haddr
      | some addr =>
        simp [hreport, hv4]
    · exact (h.other hrow' (hother j client' hji hrow')).2 haddr

theorem Tracked.next (h : s.Tracked) : (s.next a).Tracked := by
  cases hfind : s.toCache.findClient a.event.macAddr with
  | none => exact h.next_new hfind
  | some r => exact h.next_cached hfind

end Run

def system : System Run Arrival where
  init s := s.neighborClient = (fun _ => none) ∧ s.numNeighborClient = 0
  step s a s' := s' = s.next a

theorem tracked_invariant : system.Invariant Run.Tracked where
  init s h := by
    obtain ⟨hrows, hnum⟩ := h
    refine ⟨⟨?_, ?_, ?_⟩, ?_, ?_⟩
    · simp [hrows, hnum]
    · omega
    all_goals
      simp [hrows]
  step s a s' h hstep := hstep ▸ h.next

/-- The cache has one row for each client, in use below the count. An event of a cached client on
the bridge is posted again once, with the interface of the client, if it has an address. A client
that comes back is announced with the address of its latest IPv4 event. -/
theorem faithful_of_reachable {s : Run} (hs : system.Reachable s) (a : Arrival) :
    s.OneRowEach ∧ s.PostsAddressed a ∧ s.AnnouncesLatest a := by
  have h := tracked_invariant.reachable hs
  refine ⟨h.toOneRowEach, ?_, ?_⟩
  · intro isNew data i client hevent hbridge hrow hmac
    refine ⟨hmac ▸ h.iface i client hrow, ?_⟩
    have hfind := h.findClient hrow
    rw [hmac] at hfind
    rw [hevent] at hbridge
    unfold Run.next
    rw [hevent]
    exact Cache.eventCallback_posts_bridge hbridge hfind
  · intro hback
    refine (Cache.eventCallback_posts_reconnects (s := s.atArrival a) hback).imp_right ?_
    rintro ⟨i, client, hfind, haddr, hposts⟩
    obtain ⟨-, hrow, hmac⟩ := Cache.findClient_some hfind
    exact ⟨i, client, hrow, hmac, h.v4 i client hrow haddr, hposts⟩

def Event.inHouse (event : Event) : Arrival where
  cfg := {
    ifaceTable := [⟨"wlan0", .wlanIf, 5⟩, ⟨"bridge0", .virtualIf, 9⟩]
    ipaVirtualIfaceName := "bridge0" }
  env := { ifname := fun _ => none, outside := fun _ => ⟨"", .unknownIf, 0⟩ }
  event := event

def Run.after : List Event → Run
  | [] => { ifaceTable := [], ipaVirtualIfaceName := "bridge0" }
  | event :: events => (after events).next event.inHouse

theorem reachable_after (events : List Event) : system.Reachable (Run.after events) := by
  induction events with
  | nil => exact .init ⟨rfl, rfl⟩
  | cons event events ih => exact .step ih rfl

/-- A neighbour on the access point is cached. Then it is seen on the bridge. -/
theorem faithful_of_reachable_bridge :
    (Run.after [.neigh true ⟨5, 1, .v4, 10, 0⟩]).PostsAddressed
      (Event.neigh true ⟨9, 1, .v4, 11, 0⟩).inHouse ∧
    (Run.after [.neigh true ⟨9, 1, .v4, 11, 0⟩, .neigh true ⟨5, 1, .v4, 10, 0⟩]).posts =
      [⟨true, 5, 1, .v4, 10, some 0⟩, ⟨true, 5, 1, .v4, 11, some 0⟩] :=
  ⟨(faithful_of_reachable (reachable_after _) _).2.1, by decide +kernel⟩

/-- A cached client that is seen on the bridge without an address is not posted again. One whose
address is deleted is announced with it when it comes back. -/
theorem not_faithful_of_reachable :
    (¬ ∀ s, system.Reachable s → ∀ a, s.OneRowEach ∧ s.PostsEach a) ∧
      ¬ ∀ s, system.Reachable s → ∀ a, s.OneRowEach ∧ s.AnnouncesCurrent a := by
  constructor
  · intro h
    have hposts := (h _ (reachable_after [.neigh true ⟨5, 1, .v4, 10, 0⟩])
      (Event.neigh true ⟨9, 1, .v6, 0, 0⟩).inHouse).2 true _ 0 ⟨1, 5, 10, 0⟩ rfl
      (by decide +kernel) (by decide +kernel) rfl
    exact absurd hposts.2 (by decide +kernel)
  · intro h
    have howner := (h _ (reachable_after
      [.neigh false ⟨5, 1, .v4, 10, 0⟩, .neigh true ⟨5, 1, .v4, 10, 0⟩])
      (Event.clientAdd 5 [.macAddr 1] 0).inHouse).2.2 ⟨1, 5, 10, 0⟩ trivial (by decide +kernel)
    exact absurd howner (by decide +kernel)

end EtherDevice.Ipacm.Neighbor
