import EtherDevice.Ipacm.Neighbor

/-!
# Interface indices in range

Which events make the callbacks of `IPACM_IfaceManager` and `IPACM_Neighbor` use the interface
table at an index that it does not have. The result of `iface_ipa_index_query` is -1 for an unknown
interface, and most branches use it at once.
-/

namespace EtherDevice.Ipacm.IfaceTable

/-! ## The table under queries -/

section

variable {s : Cfg} {env : Env} {n : Nat} {idx i : Int}

/-- The table has this length, and was used inside only. -/
structure Cfg.Fits (s : Cfg) (n : Nat) : Prop where
  length : s.ifaceTable.length = n
  accesses : ∀ idx ∈ s.accesses, 0 ≤ idx ∧ idx < n

theorem query_spec (s : Cfg) (env : Env) (i : Int) :
    ¬ s.Known env i ∧ s.ifaceIpaIndexQuery env i = (-1, s) ∨
      ∃ (k : Nat) (table : List Row),
        s.ifaceIpaIndexQuery env i = ((k : Int), { s with ifaceTable := table }) ∧
        k < s.ifaceTable.length ∧ table.length = s.ifaceTable.length ∧
        ∃ row ∈ table, row.netlinkInterfaceIndex = i := by
  unfold Cfg.Known Cfg.ifaceIpaIndexQuery
  split
  · rename_i k hfind
    obtain ⟨hk, hrow, -⟩ := List.findIdx?_eq_some_iff_getElem.mp hfind
    exact .inr ⟨k, s.ifaceTable, rfl, hk, rfl, _, List.getElem_mem hk, of_decide_eq_true hrow⟩
  split
  · exact .inl ⟨show ¬ (0 : Int) ≤ -1 by decide, rfl⟩
  split
  · exact .inl ⟨show ¬ (0 : Int) ≤ -1 by decide, rfl⟩
  · rename_i k hfind
    obtain ⟨hk, -, -⟩ := List.findIdx?_eq_some_iff_getElem.mp hfind
    have hlength : k < (s.ifaceTable.modify k fun row =>
        { row with netlinkInterfaceIndex := i }).length := by rwa [List.length_modify]
    refine .inr ⟨k, _, rfl, hk, List.length_modify .., _, List.getElem_mem hlength, ?_⟩
    rw [List.getElem_modify, if_pos rfl]

theorem known_congr {s' : Cfg} (h : s'.ifaceTable = s.ifaceTable) :
    s'.Known env i ↔ s.Known env i := by
  unfold Cfg.Known Cfg.ifaceIpaIndexQuery
  rw [h]
  cases s.ifaceTable.findIdx? fun row => decide (row.netlinkInterfaceIndex = i) with
  | some k => exact Iff.rfl
  | none =>
    cases env.ifname i with
    | none => exact Iff.rfl
    | some name =>
      grind

theorem Cfg.Known.congr {s' : Cfg} (h : s.Known env i) (htable : s'.ifaceTable = s.ifaceTable) :
    s'.Known env i :=
  (known_congr htable).mpr h

theorem query_unknown (h : ¬ s.Known env i) : s.ifaceIpaIndexQuery env i = (-1, s) := by
  grind [query_spec, Cfg.Known]

theorem known_of_mem {r : Row} (hr : r ∈ s.ifaceTable) (hindex : r.netlinkInterfaceIndex = i) :
    s.Known env i := by
  grind [Cfg.Known, Cfg.ifaceIpaIndexQuery]

theorem query_known (h : s.Known env i) : ∃ (k : Nat) (table : List Row),
    s.ifaceIpaIndexQuery env i = ((k : Int), { s with ifaceTable := table }) ∧
      k < s.ifaceTable.length ∧ table.length = s.ifaceTable.length ∧
      ∃ row ∈ table, row.netlinkInterfaceIndex = i :=
  (query_spec s env i).resolve_left fun hnot => hnot.1 h

theorem Cfg.Fits.touch (h : s.Fits n) (h0 : 0 ≤ idx) (hn : idx < n) : (s.touch idx).Fits n where
  length := h.length
  accesses a ha := by
    rcases List.mem_append.mp ha with ha | ha
    · exact h.accesses a ha
    simp_all

theorem Cfg.Fits.setCat (h : s.Fits n) (h0 : 0 ≤ idx) (hn : idx < n) (cat : IfaceCat) :
    (s.setCat idx cat).Fits n where
  length := by
    simp [Cfg.setCat, h0, h.length]
  accesses := (h.touch h0 hn).accesses

theorem Cfg.Fits.query (h : s.Fits n) (env : Env) (i : Int) :
    (s.ifaceIpaIndexQuery env i).2.Fits n ∧ ((s.ifaceIpaIndexQuery env i).1 = -1 ∨
      0 ≤ (s.ifaceIpaIndexQuery env i).1 ∧ (s.ifaceIpaIndexQuery env i).1 < n) := by
  rcases query_spec s env i with ⟨-, heq⟩ | ⟨k, table, heq, hk, hlength, -⟩
  · rw [heq]
    exact ⟨h, .inl rfl⟩
  · rw [heq]
    refine ⟨⟨hlength.trans h.length, h.accesses⟩, .inr ⟨Int.natCast_nonneg k, ?_⟩⟩
    exact Int.ofNat_lt.mpr (h.length ▸ hk)

theorem query_accesses (s : Cfg) (env : Env) (i : Int) :
    (s.ifaceIpaIndexQuery env i).2.accesses = s.accesses := by
  rcases query_spec s env i with ⟨-, heq⟩ | ⟨k, table, heq, -⟩ <;> rw [heq]

theorem query_reset (s : Cfg) (env : Env) (i : Int) (accesses : List Int) :
    Cfg.ifaceIpaIndexQuery { s with accesses } env i =
      ((s.ifaceIpaIndexQuery env i).1, { (s.ifaceIpaIndexQuery env i).2 with accesses }) := by
  unfold Cfg.ifaceIpaIndexQuery
  cases s.ifaceTable.findIdx? fun row => decide (row.netlinkInterfaceIndex = i) with
  | some k => rfl
  | none =>
    cases env.ifname i with
    | none => rfl
    | some name =>
      grind

theorem mem_touch {a : Int} : a ∈ (s.touch idx).accesses ↔ a ∈ s.accesses ∨ a = idx := by
  unfold Cfg.touch
  simp

end

/-! ## The interface manager -/

namespace Manager

variable {s : Manager} {env : Env} {n : Nat} {event : Event}

/-- The events that use the table at the result of the query. -/
def Event.Uses (s : Manager) : Event → Prop
  | wanEmbmsLinkUp _ => s.ipacmOduEnable = true
  | _ => True

/-- The callback uses rows of the table only, and changes none for an unknown interface. -/
def InRange (s : Manager) (env : Env) (event : Event) : Prop :=
  (∀ idx ∈ (eventCallback { s with accesses := [] } env event).accesses, s.InTable idx) ∧
    (¬ s.Known env event.ifIndex →
      (eventCallback { s with accesses := [] } env event).ifaceTable = s.ifaceTable)

theorem fits_createIfaceInstance (h : s.Fits n) (env : Env) (param : IfacemgrData) :
    (s.createIfaceInstance env param).Fits n := by
  obtain ⟨hquery, hidx⟩ := h.query env param.ifIndex
  unfold createIfaceInstance
  dsimp only at hquery hidx ⊢
  split
  · exact hquery
  · rename_i hne
    obtain ⟨h0, hn⟩ := hidx.resolve_left hne
    have hsearch := hquery.touch h0 hn
    have hcat := hsearch.touch h0 hn
    split
    · exact hsearch
    split
    · exact hcat
    · exact hcat
    · exact hcat
    · exact hcat
    · split
      · exact hcat
      · exact hcat
    · exact hcat
    · exact hcat.touch h0 hn
    · exact hcat.touch h0 hn

theorem mem_createIfaceInstance {a : Int} (ha : a ∈ s.accesses) (env : Env)
    (param : IfacemgrData) : a ∈ (s.createIfaceInstance env param).accesses := by
  have hquery : a ∈ (s.ifaceIpaIndexQuery env param.ifIndex).2.accesses := by
    rw [query_accesses]
    exact ha
  unfold createIfaceInstance
  generalize s.ifaceIpaIndexQuery env param.ifIndex = r at hquery
  obtain ⟨idx, cfg⟩ := r
  dsimp only at hquery ⊢
  split
  · exact hquery
  · have hsearch := mem_touch.mpr (.inl hquery : a ∈ cfg.accesses ∨ a = idx)
    have hcat := mem_touch.mpr (.inl hsearch : a ∈ (cfg.touch idx).accesses ∨ a = idx)
    split
    · exact hsearch
    split
    · exact hcat
    · exact hcat
    · exact hcat
    · exact hcat
    · split
      · exact hcat
      · exact hcat
    · exact hcat
    · exact mem_touch.mpr (.inl hcat)
    · exact mem_touch.mpr (.inl hcat)

theorem fits_eventCallback (h : s.Fits n) (hknown : s.Known env event.ifIndex) :
    (s.eventCallback env event).Fits n := by
  obtain ⟨k, table, heq, hk, hlength, -⟩ := query_known hknown
  have hquery := (h.query env event.ifIndex).1
  have h0 : (0 : Int) ≤ k := Int.natCast_nonneg k
  have hn : (k : Int) < n := Int.ofNat_lt.mpr (h.length ▸ hk)
  unfold eventCallback
  rw [heq] at hquery ⊢
  have htouch := hquery.touch h0 hn
  have hset := fun cat => htouch.setCat h0 hn cat
  cases event with
  | linkUp ifIndex =>
    dsimp only
    split
    · exact htouch
    split
    · exact fits_createIfaceInstance htouch _ _
    · exact htouch
  | usbLinkUp ifIndex =>
    dsimp only
    split
    · exact fits_createIfaceInstance htouch _ _
    · exact fits_createIfaceInstance htouch _ _
  | wlanApLinkUp ifIndex =>
    dsimp only
    split
    · exact fits_createIfaceInstance (hset _) _ _
    · exact htouch
  | wlanStaLinkUp ifIndex macAddr =>
    dsimp only
    split
    · exact fits_createIfaceInstance (hset _) _ _
    · exact htouch
  | wanEmbmsLinkUp ifIndex =>
    dsimp only
    split
    · split
      · exact fits_createIfaceInstance (hset _) _ _
      · exact htouch
    · exact hquery

theorem mem_eventCallback (hunknown : ¬ s.Known env event.ifIndex) (huses : event.Uses s) :
    -1 ∈ (s.eventCallback env event).accesses := by
  have htouch : (-1 : Int) ∈ (s.touch (-1)).accesses := mem_touch.mpr (.inr rfl)
  have hset : ∀ cat, (-1 : Int) ∈ (Cfg.setCat (s.touch (-1)) (-1) cat).accesses := fun _ =>
    mem_touch.mpr (.inl htouch)
  unfold eventCallback
  rw [query_unknown hunknown]
  cases event with
  | linkUp ifIndex =>
    dsimp only
    split
    · exact htouch
    split
    · exact mem_createIfaceInstance htouch _ _
    · exact htouch
  | usbLinkUp ifIndex =>
    dsimp only
    split
    · exact mem_createIfaceInstance htouch _ _
    · exact mem_createIfaceInstance htouch _ _
  | wlanApLinkUp ifIndex =>
    dsimp only
    split
    · exact mem_createIfaceInstance (hset _) _ _
    · exact htouch
  | wlanStaLinkUp ifIndex macAddr =>
    dsimp only
    split
    · exact mem_createIfaceInstance (hset _) _ _
    · exact htouch
  | wanEmbmsLinkUp ifIndex =>
    have hodu : s.ipacmOduEnable = true := huses
    dsimp only
    rw [if_pos hodu]
    split
    · exact mem_createIfaceInstance (hset _) _ _
    · exact htouch

theorem inRange_iff (s : Manager) (env : Env) (event : Event) :
    s.InRange env event ↔ (event.Uses s → s.Known env event.ifIndex) := by
  have hknown : Cfg.Known { s.toCfg with accesses := [] } env event.ifIndex ↔
      s.Known env event.ifIndex := known_congr rfl
  constructor
  · intro hrange huses
    by_contra hunknown
    have hin := hrange.1 (-1) (mem_eventCallback (fun h => hunknown (hknown.mp h)) huses)
    exact absurd hin.1 (by decide)
  · intro huses
    by_cases h : s.Known env event.ifIndex
    · have hfits : Cfg.Fits { s.toCfg with accesses := [] } s.ifaceTable.length :=
        ⟨rfl, fun _ ha => absurd ha List.not_mem_nil⟩
      have hafter := fits_eventCallback (s := { s with accesses := [] }) hfits (hknown.mpr h)
      exact ⟨hafter.accesses, fun hnot => absurd h hnot⟩
    · -- only an event that is not looked at is left
      have hnot : ¬ event.Uses s := fun hin => h (huses hin)
      cases event with
      | wanEmbmsLinkUp ifIndex =>
        have hodu : ¬ s.ipacmOduEnable = true := hnot
        simp_all [InRange, eventCallback, query_unknown]
      | linkUp | usbLinkUp | wlanApLinkUp | wlanStaLinkUp => exact absurd trivial hnot

end Manager

end EtherDevice.Ipacm.IfaceTable

/-! ## The neighbour cache -/

namespace EtherDevice.Ipacm.Neighbor

open Lib IfaceTable

namespace Cache

variable {s : Cache} {env : Env} {n : Nat} {idx a : Int} {event : Event} {data : EventData}

/-- The events for which the callback uses the row of the interface. -/
def Uses (s : Cache) : Event → Prop
  | .clientAdd _ attribs unset => (s.findClient (clientMacAddr unset attribs)).isSome = true
  | .neigh _ data => data.iptype = .v4 → data.ipv4Addr ≠ 0

/-- An event on the bridge is posted again with an interface that is known. -/
def RepostsKnown (s : Cache) (env : Env) : Event → Prop
  | .clientAdd .. => True
  | .neigh _ data => data.HasAddr → ∀ i client, s.findClient data.macAddr = some (i, client) →
      (s.ifaceIpaIndexQuery env data.ifIndex).2.isBridge env
        (s.ifaceIpaIndexQuery env data.ifIndex).1 →
      (s.ifaceIpaIndexQuery env data.ifIndex).2.Known env client.ifaceIndex

/-- The callback uses rows of the table only, and changes none for an unknown interface. -/
def InRange (s : Cache) (env : Env) (event : Event) : Prop :=
  (∀ idx ∈ (eventCallback { s with accesses := [] } env event).accesses, s.InTable idx) ∧
    (¬ s.Known env event.ifIndex →
      (eventCallback { s with accesses := [] } env event).ifaceTable = s.ifaceTable)

/-! ### Uses inside the table -/

theorem fits_logIface {i : Int} (h : s.Fits n) (hknown : s.Known env i) :
    (s.logIface env i).Fits n := by
  obtain ⟨k, table, heq, hk, hlength, -⟩ := query_known hknown
  have hquery := (h.query env i).1
  unfold logIface
  rw [heq] at hquery ⊢
  exact hquery.touch (Int.natCast_nonneg k) (Int.ofNat_lt.mpr (h.length ▸ hk))

theorem fits_addClient (h : s.Fits n) (client : Client) : (s.addClient client).Fits n := by
  unfold addClient
  split
  · exact h
  · exact h

theorem fits_reconnect (h : s.Fits n) (h0 : 0 ≤ idx) (hn : idx < n) {ifIndex : Int}
    (hknown : s.Known env ifIndex) (i : Nat) (client : Client) :
    (s.reconnect env i client ifIndex idx).Fits n := by
  have htouch := h.touch h0 hn
  unfold reconnect
  dsimp only
  split
  · exact htouch
  split
  · exact htouch
  split
  · exact fits_logIface htouch (hknown.congr rfl)
  · exact htouch

theorem fits_handleV4 (h : s.Fits n) (h0 : 0 ≤ idx) (hn : idx < n) (isNew : Bool)
    (hknown : ∀ i client, s.findClient data.macAddr = some (i, client) → s.isBridge env idx →
      s.Known env client.ifaceIndex) : (s.handleV4 env isNew data idx).Fits n := by
  have htouch := h.touch h0 hn
  unfold handleV4
  dsimp only
  split
  · rename_i hbridge
    split
    · exact htouch
    · rename_i i client hfind
      exact fits_logIface htouch ((hknown i client hfind hbridge).congr rfl)
  · split
    · exact (htouch.touch h0 hn).touch h0 hn
    · exact fits_addClient (htouch.touch h0 hn) _

theorem fits_handleV6 (h : s.Fits n) (h0 : 0 ≤ idx) (hn : idx < n) (isNew : Bool)
    (hknown : ∀ i client, s.findClient data.macAddr = some (i, client) → s.isBridge env idx →
      s.Known env client.ifaceIndex) : (s.handleV6 env isNew data idx).Fits n := by
  have htouch := h.touch h0 hn
  unfold handleV6
  dsimp only
  split
  · rename_i hbridge
    split
    · exact htouch
    · rename_i i client hfind
      exact fits_logIface htouch ((hknown i client hfind hbridge).congr rfl)
  · exact htouch.touch h0 hn

theorem fits_handleNoAddr (h : s.Fits n) (h0 : 0 ≤ idx) (hn : idx < n)
    (hknown : s.Known env data.ifIndex) : (s.handleNoAddr env data idx).Fits n := by
  have htouch := h.touch h0 hn
  unfold handleNoAddr
  split
  · exact fits_reconnect h h0 hn hknown _ _
  · dsimp only
    split
    · exact htouch
    · exact fits_addClient htouch _

/-! ### Uses at -1 -/

theorem mem_logIface (ha : a ∈ s.accesses) (env : Env) (i : Int) :
    a ∈ (s.logIface env i).accesses := by
  unfold logIface
  rw [mem_touch, query_accesses]
  exact .inl ha

theorem mem_addClient (ha : a ∈ s.accesses) (client : Client) :
    a ∈ (s.addClient client).accesses := by
  unfold addClient
  split
  · exact ha
  · exact ha

theorem mem_reconnect (env : Env) (i : Nat) (client : Client) (ifIndex : Int) :
    idx ∈ (s.reconnect env i client ifIndex idx).accesses := by
  have htouch : idx ∈ (s.touch idx).accesses := mem_touch.mpr (.inr rfl)
  unfold reconnect
  dsimp only
  split
  · exact htouch
  split
  · exact htouch
  split
  · exact mem_logIface htouch _ _
  · exact htouch

theorem mem_handleV4 (env : Env) (isNew : Bool) (data : EventData) :
    idx ∈ (s.handleV4 env isNew data idx).accesses := by
  have htouch : idx ∈ (s.touch idx).accesses := mem_touch.mpr (.inr rfl)
  have htwice : idx ∈ ((s.touch idx).touch idx).accesses := mem_touch.mpr (.inr rfl)
  unfold handleV4
  dsimp only
  split
  · split
    · exact htouch
    · exact mem_logIface htouch _ _
  · split
    · exact mem_touch.mpr (.inr rfl)
    · exact mem_addClient htwice _

theorem mem_handleV6 (env : Env) (isNew : Bool) (data : EventData) :
    idx ∈ (s.handleV6 env isNew data idx).accesses := by
  have htouch : idx ∈ (s.touch idx).accesses := mem_touch.mpr (.inr rfl)
  unfold handleV6
  dsimp only
  split
  · split
    · exact htouch
    · exact mem_logIface htouch _ _
  · exact mem_touch.mpr (.inr rfl)

theorem mem_handleNoAddr (env : Env) (data : EventData) :
    idx ∈ (s.handleNoAddr env data idx).accesses := by
  have htouch : idx ∈ (s.touch idx).accesses := mem_touch.mpr (.inr rfl)
  unfold handleNoAddr
  split
  · exact mem_reconnect _ _ _ _
  · dsimp only
    split
    · exact htouch
    · exact mem_addClient htouch _

theorem mem_logIface_unknown {i : Int} (h : ¬ s.Known env i) :
    -1 ∈ (s.logIface env i).accesses := by
  unfold logIface
  rw [query_unknown h]
  exact mem_touch.mpr (.inr rfl)

theorem mem_repost {i : Nat} {client : Client} (hbridge : s.isBridge env idx)
    (hfind : s.findClient data.macAddr = some (i, client))
    (hunknown : ¬ s.Known env client.ifaceIndex) (isNew : Bool) :
    -1 ∈ (s.handleV4 env isNew data idx).accesses ∧
      -1 ∈ (s.handleV6 env isNew data idx).accesses := by
  have hsame : (s.touchRow idx).findClient data.macAddr = some (i, client) := hfind
  constructor
  · unfold handleV4
    rw [if_pos hbridge, hsame]
    exact mem_logIface_unknown fun h => hunknown (h.congr rfl)
  · unfold handleV6
    rw [if_pos hbridge, hsame]
    exact mem_logIface_unknown fun h => hunknown (h.congr rfl)

theorem eventCallback_not_uses (env : Env) (h : ¬ s.Uses event) :
    s.eventCallback env event = { s with toCfg := (s.ifaceIpaIndexQuery env event.ifIndex).2 } := by
  cases event with
  | clientAdd ifIndex attribs unset =>
    have hnone : s.findClient (clientMacAddr unset attribs) = none :=
      Option.not_isSome_iff_eq_none.mp h
    have hsame : Cache.findClient { s with toCfg := (s.ifaceIpaIndexQuery env ifIndex).2 }
        (clientMacAddr unset attribs) = none := hnone
    unfold eventCallback
    dsimp only [Event.ifIndex]
    rw [hsame]
  | neigh isNew data =>
    obtain ⟨hv4, hzero⟩ := Classical.not_imp.mp h
    simp_all [eventCallback]

theorem fits_eventCallback (h : s.Fits n) (hknown : s.Known env event.ifIndex)
    (hrepost : s.RepostsKnown env event) : (s.eventCallback env event).Fits n := by
  obtain ⟨k, table, heq, hk, hlength, r, hr, hindex⟩ := query_known hknown
  have hquery := (h.query env event.ifIndex).1
  have h0 : (0 : Int) ≤ k := Int.natCast_nonneg k
  have hn : (k : Int) < n := Int.ofNat_lt.mpr (h.length ▸ hk)
  have hstill : Cfg.Known { s.toCfg with ifaceTable := table } env event.ifIndex :=
    known_of_mem hr hindex
  unfold eventCallback
  rw [heq] at hquery ⊢
  cases event with
  | clientAdd ifIndex attribs unset =>
    dsimp only
    split
    · exact hquery
    · exact fits_reconnect hquery h0 hn hstill _ _
  | neigh isNew data =>
    have hrepost : data.HasAddr → ∀ i client, s.findClient data.macAddr = some (i, client) →
        Cfg.isBridge { s.toCfg with ifaceTable := table } env k →
        Cfg.Known { s.toCfg with ifaceTable := table } env client.ifaceIndex := by
      have heq : s.ifaceIpaIndexQuery env data.ifIndex = _ := heq
      simp_all [RepostsKnown]
    unfold EventData.HasAddr at hrepost
    dsimp only
    split
    · rename_i hv4
      rw [if_pos hv4] at hrepost
      split
      · rename_i haddr
        exact fits_handleV4 hquery h0 hn isNew (hrepost haddr)
      · exact hquery
    · rename_i hv6
      rw [if_neg hv6] at hrepost
      split
      · rename_i haddr
        exact fits_handleV6 hquery h0 hn isNew (hrepost haddr)
      · exact fits_handleNoAddr hquery h0 hn hstill

theorem mem_eventCallback (hunknown : ¬ s.Known env event.ifIndex) (huses : s.Uses event) :
    -1 ∈ (s.eventCallback env event).accesses := by
  unfold eventCallback
  rw [query_unknown hunknown]
  cases event with
  | clientAdd ifIndex attribs unset =>
    obtain ⟨⟨i, client⟩, hfind⟩ := Option.isSome_iff_exists.mp huses
    simp [mem_reconnect, hfind]
  | neigh isNew data =>
    dsimp only
    split
    · rename_i hv4
      rw [if_pos (huses hv4)]
      exact mem_handleV4 _ _ _
    split
    · exact mem_handleV6 _ _ _
    · exact mem_handleNoAddr _ _

theorem mem_eventCallback_repost (hrepost : ¬ s.RepostsKnown env event) :
    -1 ∈ (s.eventCallback env event).accesses := by
  cases event with
  | clientAdd => exact absurd trivial hrepost
  | neigh isNew data =>
    unfold RepostsKnown at hrepost
    push Not at hrepost
    obtain ⟨haddr, i, client, hfind, hbridge, hunknown⟩ := hrepost
    have hmem := mem_repost (s := { s with toCfg := (s.ifaceIpaIndexQuery env data.ifIndex).2 })
      hbridge hfind hunknown isNew
    unfold EventData.HasAddr at haddr
    unfold eventCallback
    dsimp only [Event.ifIndex]
    split
    · simp_all
    simp_all

theorem repostsKnown_reset :
    RepostsKnown { s with accesses := [] } env event ↔ s.RepostsKnown env event := by
  cases event with
  | clientAdd => exact Iff.rfl
  | neigh isNew data =>
    have hbridge : Cfg.isBridge { (s.ifaceIpaIndexQuery env data.ifIndex).2 with accesses := [] }
          env (s.ifaceIpaIndexQuery env data.ifIndex).1 ↔
        (s.ifaceIpaIndexQuery env data.ifIndex).2.isBridge env
          (s.ifaceIpaIndexQuery env data.ifIndex).1 := Iff.rfl
    have hknown : ∀ i, Cfg.Known { (s.ifaceIpaIndexQuery env data.ifIndex).2 with accesses := [] }
          env i ↔ (s.ifaceIpaIndexQuery env data.ifIndex).2.Known env i := fun _ =>
      known_congr rfl
    unfold RepostsKnown
    dsimp only
    rw [query_reset s.toCfg env data.ifIndex []]
    simp only [hbridge, hknown]
    exact Iff.rfl

theorem inRange_iff (s : Cache) (env : Env) (event : Event) : s.InRange env event ↔
    (s.Uses event → s.Known env event.ifIndex) ∧ s.RepostsKnown env event := by
  have hknown : Cfg.Known { s.toCfg with accesses := [] } env event.ifIndex ↔
      s.Known env event.ifIndex := known_congr rfl
  constructor
  · intro hrange
    have hno : -1 ∉ (eventCallback { s with accesses := [] } env event).accesses := fun hin =>
      absurd (hrange.1 (-1) hin).1 (by decide)
    constructor
    · intro huses
      by_contra hunknown
      exact hno (mem_eventCallback (fun h => hunknown (hknown.mp h)) huses)
    · by_contra hrepost
      exact hno (mem_eventCallback_repost fun h => hrepost (repostsKnown_reset.mp h))
  · rintro ⟨huses, hrepost⟩
    by_cases h : s.Known env event.ifIndex
    · have hfits : Cfg.Fits { s.toCfg with accesses := [] } s.ifaceTable.length :=
        ⟨rfl, fun _ ha => absurd ha List.not_mem_nil⟩
      have hafter := fits_eventCallback (s := { s with accesses := [] }) hfits (hknown.mpr h)
        (repostsKnown_reset.mpr hrepost)
      exact ⟨hafter.accesses, fun hnot => absurd h hnot⟩
    · have hskip := eventCallback_not_uses (s := { s with accesses := [] }) env
        fun hin => h (huses hin)
      simp_all [InRange, query_unknown]

end Cache

/-- The manager and the neighbour cache use rows of the interface table only, exactly for events of
interfaces that are known. The eMBMS event counts with an ODU only. -/
theorem indicesInRange_iff (s : Manager) (event : Manager.Event) (t : Cache)
    (neighEvent : Event) (env : Env) : s.InRange env event ∧ t.InRange env neighEvent ↔
      (event.Uses s → s.Known env event.ifIndex) ∧
      (t.Uses neighEvent → t.Known env neighEvent.ifIndex) ∧ t.RepostsKnown env neighEvent := by
  rw [Manager.inRange_iff, Cache.inRange_iff]

/-- The link of an interface comes up and is gone before the kernel is asked for its name. The
manager reads the row before the first one. -/
theorem not_indicesInRange : ¬ ∀ (s : Manager) (event : Manager.Event) (t : Cache)
    (neighEvent : Event) (env : Env), s.InRange env event ∧ t.InRange env neighEvent := by
  intro h
  have hall := (h
    { ifaceTable := [⟨"wlan0", .wlanIf, 5⟩], ipaVirtualIfaceName := "bridge0" } (.linkUp 7)
    { ifaceTable := [], ipaVirtualIfaceName := "bridge0" } (.clientAdd 7 [] 0)
    { ifname := fun _ => none, outside := fun _ => ⟨"", .unknownIf, 0⟩ }).1.1
  exact absurd (hall (-1) (by decide)) (by decide)

end EtherDevice.Ipacm.Neighbor
