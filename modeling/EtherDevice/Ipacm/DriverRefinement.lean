import EtherDevice.IpaNati.Refinement
import EtherDevice.Ipacm.NatConsistency

/-!
# The driver behind the connection manager

`NatDriver` is what the connection manager knows of the NAT driver. Here it is compared
with the tables of the driver: in a run of the driver on a working device, `NatDriver`
with the driver's own answers goes through the same handles and rules, and its calls have
the same results (`sideBySide_agrees`).
-/

namespace EtherDevice.Ipacm

open Lib
open IpaNati (IpaNatIpv4Rule IpaNatIp4TableCache RuleMap SafeRun refinesMap_of_run addIpv4Rule
  delIpv4Rule tablesOk_of_run addIpv4Rule_ok ruleMap Fresh IndexLinkWraps Errno)

variable {c c' : IpaNatIp4TableCache} {m : RuleMap} {d : NatDriver} {r : IpaNatIpv4Rule}
  {ruleHdl : Nat}

structure Represents (d : NatDriver) (m : RuleMap) : Prop where
  table : d.table = true
  keys : (d.live.map Prod.fst).Nodup
  live : ∀ h r, (h, r) ∈ d.live ↔ m h = some r

theorem Represents.mem_keys (h : Represents d m) :
    ruleHdl ∈ d.live.map Prod.fst ↔ (m ruleHdl).isSome = true := by
  simp [Option.isSome_iff_exists, h.live]

theorem represents_add (hrun : SafeRun c m) (h : Represents d m)
    (hadd : addIpv4Rule .working c r = some (.ok ruleHdl, c')) (hans : d.answer = ruleHdl) :
    ∃ d', d.addIpv4Rule 1 r = (some ruleHdl, d') ∧
      Represents d' (Function.update m ruleHdl (some r)) := by
  have hfresh := (refinesMap_of_run hrun).fresh r ruleHdl c' hadd
  obtain ⟨e, cnt, -, -, hcnt, -⟩ := addIpv4Rule_ok (tablesOk_of_run hrun).1.handles hadd
  have hkey : ruleHdl ∉ d.live.map Prod.fst := by
    rw [h.mem_keys, hfresh]
    exact nofun
  refine ⟨{ d.next with live := (ruleHdl, r) :: d.live }, ?_, h.table, ?_, ?_⟩
  · unfold NatDriver.addIpv4Rule
    rw [hans, if_neg (by decide), if_neg]
    rintro (htable | hzero | hmem)
    · exact absurd (h.table.symm.trans htable) nofun
    · omega
    · exact hkey hmem
  · simp [hkey, h.keys]
  · intro x rx
    by_cases hx : x = ruleHdl
    · simp_all [eq_comm]
    · simp [hx, h.live]

theorem represents_del (hrun : SafeRun c m) (h : Represents d m) (hlive : m ruleHdl = some r)
    (hans : d.answer ≠ 0) (owner : IpaNatIpv4Rule) :
    (∃ c', delIpv4Rule true c ruleHdl = some (.ok (), c')) ∧
      ∃ d', d.delIpv4Rule 1 ruleHdl owner = (true, d') ∧
        Represents d' (Function.update m ruleHdl none) := by
  obtain ⟨hok, rfl⟩ := tablesOk_of_run hrun
  have hpos : ruleHdl ≠ 0 := (IpaNati.ruleMap_eq_some.mp hlive).1
  have hmem : ruleHdl ∈ d.live.map Prod.fst := by
    rw [h.mem_keys, hlive]
    rfl
  have hdel : d.Deletes 1 ruleHdl := ⟨by decide, hpos, h.table, hans, hmem⟩
  refine ⟨hok.refinesMap.deletable ruleHdl r hlive, _, if_pos hdel, h.table, ?_, ?_⟩
  · exact List.Nodup.sublist (List.filter_sublist.map Prod.fst) h.keys
  · intro x rx
    by_cases hx : x = ruleHdl
    · simp [hx]
    · simp [hx, h.live]

theorem represents_error (h : Represents d m) (hans : d.answer = 0) :
    (d.addIpv4Rule 1 r).1 = none ∧ Represents (d.addIpv4Rule 1 r).2 m := by
  unfold NatDriver.addIpv4Rule
  rw [if_neg (by decide), if_pos (.inr (.inl hans))]
  exact ⟨rfl, h.table, h.keys, h.live⟩

/-- What `NatDriver` is told of an add: the new handle, or nothing. -/
def answerOf : Except Errno Nat → Nat
  | .ok ruleHdl => ruleHdl
  | .error _ => 0

/-- The tables and `NatDriver` side by side. The connection manager deletes only handles of
live rules. -/
inductive SideBySide : IpaNatIp4TableCache → NatDriver → Prop
  | fresh {c : IpaNatIp4TableCache} {d : NatDriver} : Fresh c → d.table = true → d.live = [] →
      SideBySide c d
  | add {c c' : IpaNatIp4TableCache} {d : NatDriver} {r res} : SideBySide c d → r.IsTcpUdp →
      ¬ IndexLinkWraps c r → addIpv4Rule .working c r = some (res, c') →
      d.answer = answerOf res → SideBySide c' (d.addIpv4Rule 1 r).2
  | del {c c' : IpaNatIp4TableCache} {d : NatDriver} {ruleHdl res} (owner : IpaNatIpv4Rule) :
      SideBySide c d → (ruleMap c ruleHdl).isSome → delIpv4Rule true c ruleHdl = some (res, c') →
      d.answer ≠ 0 → SideBySide c' (d.delIpv4Rule 1 ruleHdl owner).2

theorem represents_addResult {res : Except Errno Nat} (hrun : SafeRun c m) (h : Represents d m)
    (htcp : r.IsTcpUdp) (hwraps : ¬ IndexLinkWraps c r)
    (hadd : addIpv4Rule .working c r = some (res, c')) (hans : d.answer = answerOf res) :
    (d.addIpv4Rule 1 r).1 = res.toOption ∧
      ∃ m', SafeRun c' m' ∧ Represents (d.addIpv4Rule 1 r).2 m' := by
  cases res with
  | ok ruleHdl =>
    obtain ⟨d', hres, hrep⟩ := represents_add hrun h hadd hans
    rw [hres]
    exact ⟨rfl, _, .addOk hrun htcp hwraps hadd, hrep⟩
  | error err =>
    obtain ⟨hres, hrep⟩ := represents_error h hans
    exact ⟨hres, m, .addError hrun htcp hwraps hadd, hrep⟩

theorem represents_of_sideBySide (h : SideBySide c d) :
    SafeRun c (ruleMap c) ∧ Represents d (ruleMap c) := by
  suffices hex : ∃ m, SafeRun c m ∧ Represents d m by
    obtain ⟨m, hrun, hrep⟩ := hex
    obtain ⟨-, rfl⟩ := tablesOk_of_run hrun
    exact ⟨hrun, hrep⟩
  induction h with
  | fresh hfresh htable hlive =>
    refine ⟨fun _ => none, .fresh hfresh, htable, ?_, ?_⟩
    · simp [hlive]
    · simp [hlive]
  | add _ htcp hwraps hadd hans ih =>
    obtain ⟨m, hrun, hrep⟩ := ih
    exact (represents_addResult hrun hrep htcp hwraps hadd hans).2
  | del owner _ hlive hdel hans ih =>
    obtain ⟨m, hrun, hrep⟩ := ih
    obtain ⟨-, rfl⟩ := tablesOk_of_run hrun
    obtain ⟨r, hr⟩ := Option.isSome_iff_exists.mp hlive
    obtain ⟨⟨c'', hok⟩, d', hres, hrep'⟩ := represents_del hrun hrep hr hans owner
    rw [hok, Option.some.injEq, Prod.mk.injEq] at hdel
    obtain ⟨rfl, rfl⟩ := hdel
    rw [hres]
    exact ⟨_, .delOk hrun hok, hrep'⟩

/-- **`NatDriver` simulates the tables**: it lists their live rules, and its calls have the
results of the driver. -/
theorem sideBySide_agrees (h : SideBySide c d) :
    Represents d (ruleMap c) ∧
      (∀ r res c', r.IsTcpUdp → ¬ IndexLinkWraps c r →
        addIpv4Rule .working c r = some (res, c') → d.answer = answerOf res →
        (d.addIpv4Rule 1 r).1 = res.toOption) ∧
      ∀ ruleHdl owner, (ruleMap c ruleHdl).isSome → d.answer ≠ 0 →
        (d.delIpv4Rule 1 ruleHdl owner).1 = true ∧
          ∃ c', delIpv4Rule true c ruleHdl = some (.ok (), c') := by
  obtain ⟨hrun, hrep⟩ := represents_of_sideBySide h
  refine ⟨hrep, ?_, ?_⟩
  · intro r res c' htcp hwraps hadd hans
    exact (represents_addResult hrun hrep htcp hwraps hadd hans).1
  · intro ruleHdl owner hlive hans
    obtain ⟨r, hr⟩ := Option.isSome_iff_exists.mp hlive
    obtain ⟨hok, d', hres, -⟩ := represents_del hrun hrep hr hans owner
    rw [hres]
    exact ⟨rfl, hok⟩

theorem sideBySide_agrees_oneRule :
    ∃ c d, SideBySide c d ∧ d.live = [(1, ⟨0, 0, 1, 0, 1, 6⟩)] ∧ Represents d (ruleMap c) := by
  have hadd : ((addIpv4Rule .working (IpaNati.freshTable 16 4) ⟨0, 0, 1, 0, 1, 6⟩).map
      fun p => answerOf p.1) = some 1 := by decide +kernel
  obtain ⟨⟨res, c⟩, hres, hone⟩ := Option.map_eq_some_iff.mp hadd
  let d : NatDriver := ⟨fun _ => 1, 0, true, [], []⟩
  have hfresh : SideBySide (IpaNati.freshTable 16 4) d := .fresh IpaNati.fresh_sixteen rfl rfl
  have hside := hfresh.add (by decide) (by decide +kernel) hres hone.symm
  exact ⟨c, _, hside, rfl, (sideBySide_agrees hside).1⟩

end EtherDevice.Ipacm
