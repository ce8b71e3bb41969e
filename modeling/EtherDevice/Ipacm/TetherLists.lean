import EtherDevice.Ipacm.BackhaulEvents
import EtherDevice.Lib.Transition
import Mathlib.Data.List.Nodup

/-!
# The lists of tethered interfaces

Each upstream route appends its tethered interface to a list that all WAN instances share, without
a look whether it is there, and each deletion takes one entry out. The end of a modem link clears
the list, every other end of a backhaul leaves it. `Wan.Tidy` says of one callback when the list
stays what the posted events say, and empty where there is no backhaul.
-/

namespace EtherDevice.Ipacm.Backhaul

open Lib
open ClientTable (IfaceIp Mac V6Addr)

variable {f iptype : IpType} {w : Wan} {g g' : Shared} {tether : Int} {x : BitVec 32}

/-! ## What the lists should be -/

def Posted.tetherReport (f : IpType) (x : BitVec 32) : Posted → Option (Option Unit)
  | .wanUpTether iptype data =>
    if iptype = f ∧ data.ifIndexTether = x then some (some ()) else none
  | .wanDownTether iptype data =>
    if iptype = f ∧ data.ifIndexTether = x then some none else none
  | _ => none

namespace Shared

def tetherReports (g : Shared) (f : IpType) (x : BitVec 32) : List (Option Unit) :=
  g.posted.filterMap (·.tetherReport f x)

def listed (g : Shared) (f : IpType) : List (BitVec 32) := (g.tether f).map (BitVec.ofInt 32)

structure ListedOnce (g : Shared) (f : IpType) : Prop where
  few : (g.tether f).length ≤ ipaMaxIfaceEntries
  nodup : (g.listed f).Nodup
  reported : ∀ x, Reported (g.tetherReports f x) (if x ∈ g.listed f then some () else none)

structure TetheredFor (g : Shared) (f : IpType) : Prop extends ListedOnce g f where
  down : g.wanUp f = false → g.tether f = []

def Tethered (g : Shared) : Prop := ∀ f, g.TetheredFor f

end Shared

/-! ## When they stay so -/

namespace Wan

def setsUp (w : Wan) (f : IpType) : Bool :=
  (if w.isSta then w.headerSet f else w.numExtProps ≠ 0) && w.txHdr f ≠ .incomplete

def ListsNew (w : Wan) (f : IpType) (tether : Int) (g : Shared) : Prop :=
  BitVec.ofInt 32 tether ∉ g.listed f ∧ (g.tether f).length < ipaMaxIfaceEntries ∧
    (g.wanUp f = true ∨ (w.active f = false ∧ w.setsUp f = true))

/-- If the instance is the backhaul of the family, nothing is listed. -/
def DropsEmpty (w : Wan) (f : IpType) (g : Shared) : Prop := w.active f = true → g.tether f = []

def Tidy (w : Wan) (event : Event) (g : Shared) : Prop :=
  match event with
  | .routeAdd index dst =>
    dst.isDefault = true ∧ index ≠ w.ipaIfNum → w.DropsEmpty dst.iptype g
  | .routeDel index dst =>
    dst.isDefault = true ∧ index = w.ipaIfNum → w.DropsEmpty dst.iptype g
  | .upstreamRouteAdd index iptype tether =>
    if index = w.ipaIfNum then w.ipType.has iptype = true → w.ListsNew iptype tether g
    else w.DropsEmpty iptype g
  | .wlanLinkDown index =>
    w.mIsStaMode = .wlanWan ∧ index = w.ipaIfNum ∧ w.ipType ≠ .null → ∀ f, w.DropsEmpty f g
  | .linkDown _ => w.mIsStaMode = .ecmWan ∧ w.ipType ≠ .null → ∀ f, w.DropsEmpty f g
  | _ => True

end Wan

def afterCallback (event : Event) (g : Shared) (w : Wan) : Shared := (w.eventCallback event g).2

namespace State

/-- The lists are as they should be after each callback. -/
def KeepsLists (s : State) : Op → Prop
  | .register _ => True
  | .event event => System.Along (fun g w => (afterCallback event g w).Tethered)
      (afterCallback event) s.wans s.shared

def TidyOp (s : State) : Op → Prop
  | .register _ => True
  | .event event => System.Along (fun g w => w.Tidy event g) (afterCallback event) s.wans s.shared

end State

/-! ## Handlers that leave the lists alone -/

theorem Shared.tetherReports_post (p : Posted) : (g.post p).tetherReports f x =
    g.tetherReports f x ++ (p.tetherReport f x).toList := by
  unfold tetherReports post
  cases h : p.tetherReport f x <;> simp [h]

structure Shared.SameLists (g g' : Shared) : Prop where
  tether : g'.tether = g.tether
  reports : ∀ f x, g'.tetherReports f x = g.tetherReports f x

namespace Shared

theorem SameLists.refl (g : Shared) : g.SameLists g := ⟨rfl, fun _ _ => rfl⟩

theorem SameLists.trans {g'' : Shared} (h : g.SameLists g') (h' : g'.SameLists g'') :
    g.SameLists g'' :=
  ⟨h'.tether.trans h.tether, fun f x => (h'.reports f x).trans (h.reports f x)⟩

theorem SameLists.once (h : g.SameLists g') (hf : g.ListedOnce f) : g'.ListedOnce f := by
  have hlisted : g'.listed f = g.listed f := by
    unfold listed
    rw [h.tether]
  refine ⟨?_, hlisted ▸ hf.nodup, fun x => ?_⟩
  · rw [h.tether]
    exact hf.few
  · rw [hlisted, h.reports]
    exact hf.reported x

structure Grows (g g' : Shared) : Prop extends SameLists g g' where
  up : ∀ f, g.wanUp f = true → g'.wanUp f = true

theorem Grows.refl (g : Shared) : g.Grows g := ⟨.refl g, fun _ h => h⟩

theorem Grows.trans {g'' : Shared} (h : g.Grows g') (h' : g'.Grows g'') : g.Grows g'' :=
  ⟨h.toSameLists.trans h'.toSameLists, fun f hup => h'.up f (h.up f hup)⟩

theorem Grows.tethered (h : g.Grows g') (ht : g.Tethered) : g'.Tethered := by
  intro f
  refine ⟨h.once (ht f).toListedOnce, fun hdown => ?_⟩
  have hbefore : g.wanUp f = false := by
    by_contra hup
    rw [h.up f (by simpa using hup)] at hdown
    cases hdown
  rw [h.tether]
  exact (ht f).down hbefore

end Shared

namespace Wan

theorem shared_handleRouteAddEvt (w : Wan) (iptype : IpType) (g : Shared) :
    (w.handleRouteAddEvt iptype g).2 =
      if w.setsUp iptype then (w.bringUp iptype g).2 else g := by
  unfold handleRouteAddEvt setsUp
  cases hsta : w.isSta with
  | true =>
    cases hset : w.headerSet iptype with
    | false => simp [hsta, hset]
    | true =>
      cases hhdr : w.txHdr iptype <;> simp [hsta, hset, hhdr] <;> rfl
  | false =>
    by_cases hext : w.numExtProps = 0
    · simp [hsta, hext]
    · cases hhdr : w.txHdr iptype <;> simp [hsta, hext, hhdr] <;> rfl

theorem grows_bringUp (w : Wan) (iptype : IpType) (g : Shared) :
    g.Grows (w.bringUp iptype g).2 := by
  refine ⟨⟨rfl, fun f x => ?_⟩, fun f hup => ?_⟩
  · unfold bringUp
    rw [Shared.tetherReports_post]
    exact List.append_nil _
  simp [bringUp, hup]

theorem grows_handleRouteAddEvt (w : Wan) (iptype : IpType) (g : Shared) :
    g.Grows (w.handleRouteAddEvt iptype g).2 := by
  rw [shared_handleRouteAddEvt]
  split
  · exact w.grows_bringUp iptype g
  · exact .refl g

theorem grows_retryDefaultRoute (w : Wan) (iptype : IpType) (g : Shared) :
    g.Grows (w.retryDefaultRoute iptype g).2 := by
  unfold retryDefaultRoute
  split
  · have hroute := w.grows_handleRouteAddEvt iptype g
    exact ⟨⟨hroute.tether, hroute.reports⟩, hroute.up⟩
  · exact .refl g

theorem grows_handleHeaderAddEvt (w : Wan) (g : Shared) : g.Grows (w.handleHeaderAddEvt g).2 := by
  unfold handleHeaderAddEvt
  split
  · exact .refl g
  · exact (grows_retryDefaultRoute ..).trans (grows_retryDefaultRoute ..)

theorem grows_neighClientIpAddrAdd (w : Wan) (addr : Addr) (mac_addr : Mac) (g : Shared) :
    g.Grows (w.neighClientIpAddrAdd addr mac_addr g).2 := by
  have hfirst : g.Grows
      (if w.mIsStaMode = .wlanWan then w.handleHeaderAddEvt g else (w, g)).2 := by
    split
    · exact w.grows_handleHeaderAddEvt g
    · exact .refl g
  unfold neighClientIpAddrAdd
  split
  rename_i w' g' heq
  rw [heq] at hfirst
  split_ifs
  · exact hfirst
  · exact hfirst
  · exact hfirst.trans (grows_handleHeaderAddEvt ..)

/-! ## Handlers that take a backhaul down -/

end Wan

theorem Shared.tethered_iff_of_down {down : IpType → Bool} (h : g.Tethered)
    (hsame : g.SameLists g') (hup : ∀ f, g'.wanUp f = (g.wanUp f && !down f)) :
    g'.Tethered ↔ ∀ f, down f = true → g.tether f = [] := by
  constructor
  · intro ht f hdown
    have hempty := (ht f).down (by rw [hup, hdown, Bool.not_true, Bool.and_false])
    rwa [hsame.tether] at hempty
  · intro hempty f
    refine ⟨hsame.once (h f).toListedOnce, fun hoff => ?_⟩
    rw [hup, Bool.and_eq_false_iff, Bool.not_eq_false'] at hoff
    rw [hsame.tether]
    exact hoff.elim (h f).down (hempty f)

namespace Wan

/-- The end of a backhaul, without the tethered interfaces. -/
def routeDown (w : Wan) (iptype : IpType) (g : Shared) : Shared :=
  (g.post (.wanDown iptype ((w.setGateway false).ifaceUp iptype none))).setWanUp iptype false

theorem shared_handleRouteDelEvt (w : Wan) (iptype : IpType) (g : Shared) :
    (w.handleRouteDelEvt iptype g).2 = if w.active iptype then w.routeDown iptype g else g := by
  split
  · rename_i hactive
    exact congrArg Prod.snd (if_pos hactive)
  · rename_i hactive
    exact congrArg Prod.snd (if_neg hactive)

theorem shared_dropDefaultRoute (w : Wan) (iptype : IpType) (g : Shared) :
    (w.dropDefaultRoute iptype g).2 = if w.active iptype then w.routeDown iptype g else g := by
  unfold dropDefaultRoute
  split
  · simp_all [shared_handleRouteDelEvt]
  · rfl

theorem same_routeDown (w : Wan) (iptype : IpType) (g : Shared) :
    g.SameLists (w.routeDown iptype g) := by
  refine ⟨rfl, fun f x => ?_⟩
  refine (Shared.tetherReports_post (g := g) _).trans ?_
  exact List.append_nil _

theorem wanUp_routeDown (w : Wan) (iptype : IpType) (g : Shared) :
    (w.routeDown iptype g).wanUp f = if f = iptype then false else g.wanUp f :=
  Shared.wanUp_setWanUp false

theorem tethered_routeDown (h : g.Tethered) (hempty : g.tether iptype = []) :
    (w.routeDown iptype g).Tethered := by
  have hup : ∀ f, (w.routeDown iptype g).wanUp f = (g.wanUp f && !decide (f = iptype)) := by
    intro f
    rw [wanUp_routeDown]
    by_cases hf : f = iptype <;> simp [hf]
  refine (Shared.tethered_iff_of_down h (w.same_routeDown iptype g) hup).mpr fun f hf => ?_
  exact of_decide_eq_true hf ▸ hempty

theorem same_dropDefaultRoute (w : Wan) (iptype : IpType) (g : Shared) :
    g.SameLists (w.dropDefaultRoute iptype g).2 := by
  rw [shared_dropDefaultRoute]
  split
  · exact w.same_routeDown iptype g
  · exact .refl g

theorem wanUp_dropDefaultRoute (w : Wan) (iptype : IpType) (g : Shared) :
    (w.dropDefaultRoute iptype g).2.wanUp f =
      (g.wanUp f && !(decide (f = iptype) && w.active iptype)) := by
  rw [shared_dropDefaultRoute]
  cases hactive : w.active iptype with
  | false => simp
  | true =>
    rw [if_pos rfl, wanUp_routeDown]
    by_cases hf : f = iptype <;> simp [hf]

theorem tethered_dropDefaultRoute_iff (h : g.Tethered) :
    (w.dropDefaultRoute iptype g).2.Tethered ↔ w.DropsEmpty iptype g := by
  rw [Shared.tethered_iff_of_down h (w.same_dropDefaultRoute iptype g)
    fun f => w.wanUp_dropDefaultRoute iptype g]
  simp only [Bool.and_eq_true, decide_eq_true_eq]
  exact ⟨fun hempty hactive => hempty iptype ⟨rfl, hactive⟩,
    fun hempty f hdown => hdown.1 ▸ hempty hdown.2⟩

theorem tethered_handleDownEvt_iff (h : g.Tethered) :
    (w.handleDownEvt g).Tethered ↔ (w.ipType ≠ .null → ∀ f, w.DropsEmpty f g) := by
  unfold handleDownEvt
  split
  · simp_all
  · rename_i hne
    have hactive : (w.dropDefaultRoute .v4 g).1.active .v6 = w.active .v6 := by
      unfold dropDefaultRoute
      split
      · rw [active_handleRouteDelEvt]
        exact Bool.and_true _
      · rfl
    have hsame := (w.same_dropDefaultRoute .v4 g).trans
      ((w.dropDefaultRoute .v4 g).1.same_dropDefaultRoute .v6 (w.dropDefaultRoute .v4 g).2)
    have hup : ∀ f, ((w.dropDefaultRoute .v4 g).1.dropDefaultRoute .v6
        (w.dropDefaultRoute .v4 g).2).2.wanUp f = (g.wanUp f && !w.active f) := by
      intro f
      rw [wanUp_dropDefaultRoute, wanUp_dropDefaultRoute, hactive]
      cases f <;> simp
    exact (Shared.tethered_iff_of_down h hsame hup).trans
      ⟨fun hempty _ => hempty, fun hempty => hempty hne⟩

/-! ## Tethered interfaces that come and go -/

theorem postWanUpTetherEvt_tether (w : Wan) (iptype : IpType) (tether : Int) (g : Shared) :
    (w.postWanUpTetherEvt iptype tether g).tether f =
      if f = iptype then g.tether iptype ++ [tether] else g.tether f := by
  unfold postWanUpTetherEvt
  exact Function.update_apply ..

theorem postWanUpTetherEvt_reports (w : Wan) (iptype : IpType) (tether : Int) (g : Shared) :
    (w.postWanUpTetherEvt iptype tether g).tetherReports f x = g.tetherReports f x ++
      if iptype = f ∧ BitVec.ofInt 32 tether = x then [some ()] else [] := by
  refine (Shared.tetherReports_post (g := g) _).trans ?_
  congr 1
  unfold Posted.tetherReport
  dsimp only
  split <;> rfl

theorem postWanDownTetherEvt_tether (w : Wan) (iptype : IpType) (tether : Int) (g : Shared) :
    (w.postWanDownTetherEvt iptype tether g).tether f =
      if f = iptype then (g.tether iptype).erase tether else g.tether f := by
  unfold postWanDownTetherEvt
  split
  · exact Function.update_apply ..
  simp_all [List.erase_of_not_mem]

theorem postWanDownTetherEvt_reports (w : Wan) (iptype : IpType) (tether : Int) (g : Shared) :
    (w.postWanDownTetherEvt iptype tether g).tetherReports f x = g.tetherReports f x ++
      if tether ∈ g.tether iptype ∧ iptype = f ∧ BitVec.ofInt 32 tether = x then [none]
      else [] := by
  unfold postWanDownTetherEvt
  split
  · rename_i hmem
    refine (Shared.tetherReports_post (g := g) _).trans ?_
    congr 1
    simp only [hmem, true_and]
    unfold Posted.tetherReport
    dsimp only
    split <;> rfl
  simp_all

theorem postWanUpTetherEvt_wanUp (w : Wan) (iptype : IpType) (tether : Int) (g : Shared) :
    (w.postWanUpTetherEvt iptype tether g).wanUp = g.wanUp := rfl

theorem postWanDownTetherEvt_wanUp (w : Wan) (iptype : IpType) (tether : Int) (g : Shared) :
    (w.postWanDownTetherEvt iptype tether g).wanUp = g.wanUp := by
  unfold postWanDownTetherEvt
  split <;> rfl

theorem listed_postWanUpTetherEvt (w : Wan) (iptype : IpType) (tether : Int) (g : Shared) :
    (w.postWanUpTetherEvt iptype tether g).listed f =
      if f = iptype then g.listed iptype ++ [BitVec.ofInt 32 tether] else g.listed f := by
  unfold Shared.listed
  rw [postWanUpTetherEvt_tether]
  split
  · rw [List.map_append, List.map_singleton]
  · rfl

theorem once_postWanUpTetherEvt_of_ne (hne : f ≠ iptype) (h : g.ListedOnce f) :
    (w.postWanUpTetherEvt iptype tether g).ListedOnce f := by
  refine ⟨?_, ?_, fun x => ?_⟩
  · rw [postWanUpTetherEvt_tether, if_neg hne]
    exact h.few
  · rw [listed_postWanUpTetherEvt, if_neg hne]
    exact h.nodup
  · rw [listed_postWanUpTetherEvt, if_neg hne, postWanUpTetherEvt_reports,
      if_neg fun heq => hne heq.1.symm, List.append_nil]
    exact h.reported x

theorem once_postWanUpTetherEvt_iff (h : g.ListedOnce iptype) :
    (w.postWanUpTetherEvt iptype tether g).ListedOnce iptype ↔
      BitVec.ofInt 32 tether ∉ g.listed iptype ∧
        (g.tether iptype).length < ipaMaxIfaceEntries := by
  have hlisted : (w.postWanUpTetherEvt iptype tether g).listed iptype =
      g.listed iptype ++ [BitVec.ofInt 32 tether] := by
    rw [listed_postWanUpTetherEvt, if_pos rfl]
  have htether : (w.postWanUpTetherEvt iptype tether g).tether iptype =
      g.tether iptype ++ [tether] := by
    rw [postWanUpTetherEvt_tether, if_pos rfl]
  constructor
  · intro hafter
    have hnodup := hafter.nodup
    have hfew := hafter.few
    grind
  · rintro ⟨hnot, hfew⟩
    refine ⟨?_, ?_, fun x => ?_⟩
    · rw [htether, List.length_append, List.length_singleton]
      exact hfew
    · rw [hlisted]
      refine List.nodup_append.mpr ⟨h.nodup, List.nodup_singleton _, fun x hx y hy => ?_⟩
      rw [List.mem_singleton] at hy
      rintro rfl
      exact hnot (hy ▸ hx)
    · have hx := h.reported x
      rw [hlisted, postWanUpTetherEvt_reports]
      by_cases heq : BitVec.ofInt 32 tether = x
      · subst heq
        rw [if_neg hnot] at hx
        simp [hx.up]
      · rw [if_neg fun hboth => heq hboth.2, List.append_nil]
        simp only [List.mem_append, List.mem_singleton, Ne.symm heq, or_false]
        exact hx

theorem tethered_postWanUpTetherEvt_iff (h : g.Tethered) :
    (w.postWanUpTetherEvt iptype tether g).Tethered ↔ BitVec.ofInt 32 tether ∉ g.listed iptype ∧
      (g.tether iptype).length < ipaMaxIfaceEntries ∧ g.wanUp iptype = true := by
  constructor
  · intro hafter
    obtain ⟨hnot, hfew⟩ :=
      (once_postWanUpTetherEvt_iff (h iptype).toListedOnce).mp (hafter iptype).toListedOnce
    refine ⟨hnot, hfew, ?_⟩
    by_contra hoff
    have hempty := (hafter iptype).down (by
      rw [postWanUpTetherEvt_wanUp]
      simpa using hoff)
    simp_all [postWanUpTetherEvt_tether]
  · rintro ⟨hnot, hfew, hup⟩ f
    by_cases hf : f = iptype
    · subst hf
      refine ⟨(once_postWanUpTetherEvt_iff (h f).toListedOnce).mpr ⟨hnot, hfew⟩, fun hoff => ?_⟩
      rw [postWanUpTetherEvt_wanUp, hup] at hoff
      cases hoff
    · refine ⟨once_postWanUpTetherEvt_of_ne hf (h f).toListedOnce, fun hoff => ?_⟩
      rw [postWanUpTetherEvt_tether, if_neg hf]
      exact (h f).down hoff

theorem mem_listed_postWanDownTetherEvt (h : (g.listed f).Nodup) :
    x ∈ (w.postWanDownTetherEvt iptype tether g).listed f ↔ x ∈ g.listed f ∧
      ¬(tether ∈ g.tether iptype ∧ iptype = f ∧ BitVec.ofInt 32 tether = x) := by
  unfold Shared.listed at h ⊢
  rw [postWanDownTetherEvt_tether]
  split
  · rename_i hf
    subst hf
    by_cases hmem : tether ∈ g.tether f
    · grind [List.perm_cons_erase]
    simp [List.erase_of_not_mem, hmem]
  · rename_i hf
    exact ⟨fun hx => ⟨hx, fun hgone => hf hgone.2.1.symm⟩, And.left⟩

theorem once_postWanDownTetherEvt (h : g.ListedOnce f) :
    (w.postWanDownTetherEvt iptype tether g).ListedOnce f := by
  have hsub : ((w.postWanDownTetherEvt iptype tether g).tether f).Sublist (g.tether f) := by
    rw [postWanDownTetherEvt_tether]
    split
    · rename_i hf
      exact hf ▸ List.erase_sublist
    · exact List.Sublist.refl _
  refine ⟨hsub.length_le.trans h.few, h.nodup.sublist (hsub.map _), fun x => ?_⟩
  have hx := h.reported x
  have hmem : x ∈ (w.postWanDownTetherEvt iptype tether g).listed f ↔ _ :=
    mem_listed_postWanDownTetherEvt h.nodup
  rw [postWanDownTetherEvt_reports]
  split
  · rename_i hgone
    obtain ⟨htether, rfl, rfl⟩ := hgone
    have hlisted : BitVec.ofInt 32 tether ∈ g.listed iptype := List.mem_map_of_mem htether
    rw [if_pos hlisted] at hx
    rw [if_neg fun hstays => (hmem.mp hstays).2 ⟨htether, rfl, rfl⟩]
    exact hx.down
  simp_all

theorem tethered_postWanDownTetherEvt (h : g.Tethered) :
    (w.postWanDownTetherEvt iptype tether g).Tethered := by
  intro f
  refine ⟨once_postWanDownTetherEvt (h f).toListedOnce, fun hoff => ?_⟩
  rw [postWanDownTetherEvt_wanUp] at hoff
  rw [postWanDownTetherEvt_tether]
  split
  · rename_i hf
    rw [← hf, (h f).down hoff]
    rfl
  · exact (h f).down hoff

/-! ## The end of a modem link -/

theorem foldl_postWanDownTetherEvt (w : Wan) (iptype : IpType) (tethers : List Int) (g : Shared) :
    ∃ g', tethers.foldl (fun g tether => w.postWanDownTetherEvt iptype tether g) g = g' ∧
      g'.wanUp = g.wanUp ∧ g'.tether iptype = (g.tether iptype).diff tethers ∧
      (∀ f, f ≠ iptype → g'.tether f = g.tether f) ∧ ∀ f, g.ListedOnce f → g'.ListedOnce f := by
  induction tethers generalizing g with
  | nil => exact ⟨g, rfl, rfl, rfl, fun _ _ => rfl, fun _ h => h⟩
  | cons tether tethers ih =>
    obtain ⟨g', heq, hup, htether, hother, honce⟩ := ih (w.postWanDownTetherEvt iptype tether g)
    refine ⟨g', heq, hup.trans (w.postWanDownTetherEvt_wanUp iptype tether g), ?_, fun f hf => ?_,
      fun f hf => honce f (once_postWanDownTetherEvt hf)⟩
    · rw [htether, postWanDownTetherEvt_tether, if_pos rfl, List.diff_cons]
    · rw [hother f hf, postWanDownTetherEvt_tether, if_neg hf]

theorem tethered_familyDown (h : g.Tethered) : (w.familyDown iptype g).2.Tethered := by
  have hsame : g.SameLists (w.handleRouteDelEvt iptype (g.setWanUp iptype false)).2 := by
    have hset : g.SameLists (g.setWanUp iptype false) := ⟨rfl, fun _ _ => rfl⟩
    rw [shared_handleRouteDelEvt]
    split
    · exact hset.trans (w.same_routeDown iptype _)
    · exact hset
  have hup : ∀ f, f ≠ iptype →
      (w.handleRouteDelEvt iptype (g.setWanUp iptype false)).2.wanUp f = g.wanUp f := by
    intro f hf
    rw [shared_handleRouteDelEvt]
    split
    · rw [wanUp_routeDown, if_neg hf, Shared.wanUp_setWanUp, if_neg hf]
    · rw [Shared.wanUp_setWanUp, if_neg hf]
  unfold familyDown
  dsimp only
  generalize (w.handleRouteDelEvt iptype (g.setWanUp iptype false)).2 = g₁ at hsame hup
  obtain ⟨g', heq, hwanUp, htether, hother, honce⟩ :=
    (w.handleRouteDelEvt iptype (g.setWanUp iptype false)).1.foldl_postWanDownTetherEvt iptype
      (g₁.tether iptype) g₁
  rw [heq]
  intro f
  refine ⟨honce f (hsame.once (h f).toListedOnce), fun hoff => ?_⟩
  by_cases hf : f = iptype
  · subst hf
    rw [htether]
    have hnodup : (g₁.tether f).Nodup := ((hsame.once (h f).toListedOnce).nodup).of_map
    refine List.eq_nil_iff_forall_not_mem.mpr fun y hy => ?_
    have hboth := hnodup.mem_sdiff_iff.mp hy
    exact hboth.2 hboth.1
  · rw [hother f hf, hsame.tether]
    rw [hwanUp, hup f hf] at hoff
    exact (h f).down hoff

theorem tethered_handleDownEvtEx (h : g.Tethered) : (w.handleDownEvtEx g).Tethered := by
  grind [handleDownEvtEx, tethered_familyDown]

/-! ## Callbacks -/

theorem setsUp_request (w : Wan) (iptype f : IpType) (route : Route) :
    (w.request iptype route).setsUp f = w.setsUp f := rfl

theorem wanUp_handleRouteAddEvt (w : Wan) (iptype : IpType) (g : Shared) :
    (w.handleRouteAddEvt iptype g).2.wanUp iptype = (g.wanUp iptype || w.setsUp iptype) := by
  rw [shared_handleRouteAddEvt]
  cases hup : w.setsUp iptype with
  | false => simp
  | true =>
    rw [if_pos rfl, Bool.or_true]
    exact Function.update_self ..

theorem tethered_upstreamAdd_iff (h : g.Tethered) :
    (afterCallback (.upstreamRouteAdd w.ipaIfNum iptype tether) g w).Tethered ↔
      (w.ipType.has iptype = true → w.ListsNew iptype tether g) := by
  unfold afterCallback eventCallback
  dsimp only
  rw [if_pos rfl]
  split
  · rename_i hhas
    have hgrows : g.Grows (if w.active iptype then (w, g)
        else (w.request iptype (.upstream tether)).handleRouteAddEvt iptype g).2 := by
      split
      · exact .refl g
      · exact grows_handleRouteAddEvt ..
    have hup : (if w.active iptype then (w, g)
        else (w.request iptype (.upstream tether)).handleRouteAddEvt iptype g).2.wanUp iptype =
          (g.wanUp iptype || (!w.active iptype && w.setsUp iptype)) := by
      cases hactive : w.active iptype with
      | true => simp
      | false =>
        simp [wanUp_handleRouteAddEvt, setsUp_request]
    generalize (if w.active iptype then (w, g)
      else (w.request iptype (.upstream tether)).handleRouteAddEvt iptype g) = r at hgrows hup
    have hlisted : r.2.listed iptype = g.listed iptype := by
      unfold Shared.listed
      rw [hgrows.tether]
    rw [tethered_postWanUpTetherEvt_iff (hgrows.tethered h), hlisted, hgrows.tether, hup]
    simp only [Bool.or_eq_true, Bool.and_eq_true, Bool.not_eq_true']
    exact ⟨fun hnew _ => hnew, fun hnew => hnew hhas⟩
  simp_all

theorem tethered_upstreamDel (h : g.Tethered) (index : Int) :
    (afterCallback (.upstreamRouteDel index iptype tether) g w).Tethered := by
  unfold afterCallback eventCallback
  dsimp only
  split
  · split
    · rename_i hactive
      have hdown : ((w.withdraw iptype (.upstream tether)).postWanDownTetherEvt iptype tether
          g).Tethered := tethered_postWanDownTetherEvt h
      split
      · exact hdown
      simp_all [shared_handleRouteDelEvt, tethered_routeDown]
    · exact h
  · exact h

theorem tethered_afterCallback_iff (h : g.Tethered) (event : Event) :
    (afterCallback event g w).Tethered ↔ w.Tidy event g := by
  cases event with
  | addrAdd index addr => exact iff_of_true h trivial
  | firewallChange => exact iff_of_true h trivial
  | routeAdd index dst =>
    unfold afterCallback eventCallback Tidy
    dsimp only
    split
    · simp_all
    · rename_i hdefault
      split
      · rename_i hindex
        refine iff_of_true ?_ fun hother => absurd hindex hother.2
        split
        · exact (grows_handleRouteAddEvt ..).tethered h
        · exact h
      simp_all [tethered_dropDefaultRoute_iff]
  | routeDel index dst =>
    unfold afterCallback eventCallback Tidy
    dsimp only
    split
    · rename_i hown
      rw [tethered_dropDefaultRoute_iff h]
      exact ⟨fun hempty _ => hempty, fun hempty => hempty hown⟩
    simp_all
  | upstreamRouteAdd index iptype tether =>
    by_cases hindex : index = w.ipaIfNum
    · simp [tethered_upstreamAdd_iff, Tidy, hindex, h]
    simp [afterCallback, eventCallback, tethered_dropDefaultRoute_iff, Tidy, hindex, h]
  | upstreamRouteDel index iptype tether => exact iff_of_true (tethered_upstreamDel h index) trivial
  | neighClientIpAddrAdd index addr mac_addr =>
    refine iff_of_true ?_ trivial
    unfold afterCallback eventCallback
    dsimp only
    split
    · exact (grows_neighClientIpAddrAdd ..).tethered h
    · exact h
  | wlanLinkDown index =>
    unfold afterCallback eventCallback Tidy
    dsimp only
    split
    · simp_all [tethered_handleDownEvt_iff]
    simp_all
  | linkDown index =>
    unfold afterCallback eventCallback Tidy
    dsimp only
    split
    · rename_i hmode
      refine iff_of_true ?_ fun hall => ?_
      · split
        · exact tethered_handleDownEvtEx h
        · exact h
      simp_all
    · simp_all [tethered_handleDownEvt_iff]
    simp_all

end Wan

/-! ## Runs -/

theorem tethered_processEvt {event : Event} {ws : List Wan} (h : g.Tethered)
    (htidy : System.Along (fun g w => w.Tidy event g) (afterCallback event) ws g) :
    (processEvt event ws g).2.Tethered := by
  induction ws generalizing g with
  | nil => exact h
  | cons w ws ih => exact ih ((Wan.tethered_afterCallback_iff h event).mpr htidy.1) htidy.2

namespace State

variable {s : State}

theorem keepsLists_iff (h : s.shared.Tethered) (op : Op) : s.KeepsLists op ↔ s.TidyOp op := by
  cases op with
  | register iface => exact Iff.rfl
  | event event =>
    refine System.along_iff (P := Shared.Tethered) (fun g w hg => ?_) (fun g w hg htidy => ?_) _ h
    · exact Wan.tethered_afterCallback_iff hg event
    · exact (Wan.tethered_afterCallback_iff hg event).mpr htidy

theorem exec_tethered (h : s.shared.Tethered) {op : Op} (htidy : s.TidyOp op) :
    (s.exec op).shared.Tethered := by
  cases op with
  | register iface => exact h
  | event event => exact tethered_processEvt h htidy

end State

theorem tethered_start : Shared.Tethered {} := fun _ =>
  ⟨⟨Nat.zero_le _, List.nodup_nil, fun _ => Reported.nil⟩, fun _ => rfl⟩

/-- The lists are as they should be after each callback exactly in the runs whose callbacks all
meet the condition. -/
theorem tetherLists_along_iff (ops : List Op) :
    Shared.Tethered {} ∧ System.Along State.KeepsLists State.exec ops {} ↔
      System.Along State.TidyOp State.exec ops {} := by
  rw [and_iff_right tethered_start]
  exact System.along_iff (P := fun s => s.shared.Tethered) (fun _ op h => State.keepsLists_iff h op)
    (fun _ _ h htidy => State.exec_tethered h htidy) ops tethered_start

theorem not_tetherLists_along : ¬ ∀ ops : List Op,
    Shared.Tethered {} ∧ System.Along State.KeepsLists State.exec ops {} := by
  intro h
  have hrun := (h [.register { ipaIfNum := 0, mIsStaMode := .q6Wan },
    .event (.addrAdd 0 (.v4 1)), .event (.upstreamRouteAdd 0 .v4 5),
    .event (.upstreamRouteAdd 0 .v4 5)]).2
  have hnodup := (hrun.2.2.2.1.1 .v4).nodup
  revert hnodup
  decide +kernel

end EtherDevice.Ipacm.Backhaul
