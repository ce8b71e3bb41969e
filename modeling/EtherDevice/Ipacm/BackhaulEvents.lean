import EtherDevice.Ipacm.Wan
import Mathlib.Data.List.Chain

/-!
# Events that say what is up
-/

namespace EtherDevice.Ipacm.Backhaul

structure Reported {ι : Type} (log : List (Option ι)) (o : Option ι) : Prop where
  alternate : log.IsChain fun a b => a.isSome ≠ b.isSome
  last : ∀ n, log.getLast? = some (some n) ↔ o = some n

section

variable {ι : Type} {log : List (Option ι)} {n : ι}

theorem Reported.nil : Reported ([] : List (Option ι)) none where
  alternate := .nil
  last n := by simp

theorem Reported.up (h : Reported log none) (n : ι) : Reported (log ++ [some n]) (some n) where
  alternate := by
    refine h.alternate.append (.singleton _) fun a ha b hb => ?_
    cases hb
    cases a with
    | none => simp
    | some m => cases (h.last m).mp ha
  last m := by simp

theorem Reported.down (h : Reported log (some n)) : Reported (log ++ [none]) none where
  alternate := by
    refine h.alternate.append (.singleton _) fun a ha b hb => ?_
    cases hb
    have hlast := (h.last n).mpr rfl
    rw [Option.mem_def, hlast] at ha
    cases ha
    simp
  last m := by simp

end

section

variable {f iptype : IpType} {w : Wan} {g : Shared}

@[simp] theorem Shared.wanUp_post (p : Posted) : (g.post p).wanUp = g.wanUp := rfl

@[simp] theorem Shared.wanUp_setWanUp (up : Bool) :
    (g.setWanUp iptype up).wanUp f = if f = iptype then up else g.wanUp f := by
  exact Function.update_apply ..

@[simp] theorem Wan.active_setActive (on : Bool) :
    (w.setActive iptype on).active f = if f = iptype then on else w.active f := by
  exact Function.update_apply ..

@[simp] theorem Wan.isSta_setGateway (on : Bool) : (w.setGateway on).isSta = w.isSta := rfl
@[simp] theorem Wan.active_setGateway (on : Bool) : (w.setGateway on).active = w.active := rfl
@[simp] theorem Wan.headerSet_setGateway (on : Bool) :
    (w.setGateway on).headerSet = w.headerSet := rfl
@[simp] theorem Wan.numExtProps_setGateway (on : Bool) :
    (w.setGateway on).numExtProps = w.numExtProps := rfl
@[simp] theorem Wan.txHdr_setGateway (on : Bool) : (w.setGateway on).txHdr = w.txHdr := rfl

theorem Wan.active_handleRouteDelEvt (w : Wan) (iptype : IpType) (g : Shared) :
    (w.handleRouteDelEvt iptype g).1.active f = (w.active f && decide (f ≠ iptype)) := by
  unfold Wan.handleRouteDelEvt
  dsimp only
  split
  · by_cases hf : f = iptype <;> simp [hf]
  · by_cases hf : f = iptype
    · simp_all
    · simp [hf]

end

end EtherDevice.Ipacm.Backhaul
