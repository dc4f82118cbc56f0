/-
The error contract of the four post calls, over every reachable state of
a queue pair of the library and of one of the driver: a call that fails
names the first request it has not posted and has posted the ones before
it, and a call that succeeds has posted all of them.
-/
import BxRnic.User.Proofs.Calls
import BxRnic.Kernel.Proofs.Calls

namespace BxRnic

open Run

/-- Each call keeps the contract just when it is turned down as a whole,
or each turn of its loop meets the condition. -/
theorem error_contract_iff (c : User.CreateQp) (uState : QpState)
    (attr : QpChangeInfo) (hroom : c.maxSendSge + 1 < c.numWqeAllocated)
    (uEvents : List User.SysEvent) (kqp : Kernel.Qp) (kState : QpState)
    (hsges : kqp.sq.maxSges + 1 < Kernel.maxQpWr * Kernel.maxSge)
    (kEvents : List Kernel.SysEvent) :
    let u := exec User.Sys.step (User.Sys.start c uState attr) uEvents
    let k := exec Kernel.Sys.step (Kernel.Sys.start kqp kState) kEvents
    (∀ wrs events o, u.postSendCall wrs events = some o →
      (u.SendContract wrs o ↔ u.SendCallOk wrs events))
    ∧ (∀ wrs events o, u.postRecvCall wrs events = some o →
      (u.RecvContract wrs o ↔ u.RecvCallOk wrs events))
    ∧ (∀ wrs events o, k.postSendCall wrs events = some o →
      (k.SendContract wrs o ↔ k.SendCallOk wrs events))
    ∧ ∀ wrs events o, k.postRecvCall wrs events = some o →
      (k.RecvContract wrs o ↔ k.RecvCallOk wrs events) := by
  intro u k
  have hroomy : u.qp.sq.Roomy :=
    exec_inv (I := fun s : User.Sys => s.qp.sq.Roomy) User.Sys.step_roomy
      (User.Sys.start_roomy c uState attr hroom) uEvents
  have hsized : k.Sized :=
    Kernel.Sys.exec_sized kqp kState hsges kEvents
  refine ⟨fun wrs events o hcall => ?_, fun wrs events o hcall => ?_,
    fun wrs events o hcall => ?_, fun wrs events o hcall => ?_⟩
  · exact User.Sys.postSendCall_kept_iff hroomy hcall
  · exact User.Sys.postRecvCall_kept_iff hcall
  · exact Kernel.Sys.postSendCall_kept_iff hsized.fits hcall
  · exact Kernel.Sys.postRecvCall_kept_iff hsized hcall

/-- A send of one element and a request the transport does not carry: the
library posts the first, and names the second. -/
theorem second_request_named :
    let wr : User.SendWr :=
      { User.SendWr.nothing with sgList := [⟨0x4000, 64, 1⟩] }
    let bad : User.SendWr := { wr with opcode := .other }
    let events : List User.SysEvent :=
      [.sendTurn [] none, .sendTurn [] none]
    let u := User.Sys.start .connected .rts (User.QpChangeInfo.initial 0)
    ∃ o, u.postSendCall [wr, bad] events = some o
      ∧ o.status = EINVAL ∧ u.SendContract [wr, bad] o := by
  intro wr bad events u
  have hcall : (u.postSendCall [wr, bad] events).map (·.status)
      = some EINVAL := by decide +kernel
  obtain ⟨o, ho, hstatus⟩ := Option.map_eq_some_iff.1 hcall
  refine ⟨o, ho, hstatus, ?_⟩
  exact ((error_contract_iff .connected .rts _ (by decide) []
    Kernel.sampleQp .rts (by decide) []).1 [wr, bad] events o ho).2
    (by decide +kernel)

/-- A receive of two elements. -/
def pairRecv : Kernel.RecvWr := ⟨7, [⟨0x4000, 64, 1⟩, ⟨0x5000, 64, 1⟩]⟩

/-- A chain of them as long as the driver's ring: the last is turned
down, and the caller is not told which. -/
theorem last_receive_unnamed :
    let wrs := List.replicate 128 pairRecv
    let events := List.replicate 128 Kernel.SysEvent.recvTurn
    let k := Kernel.Sys.start Kernel.sampleQp .rtr
    ∃ o, k.postRecvCall wrs events = some o
      ∧ o.status = -ENOMEM ∧ o.passed.length = 127
      ∧ o.badWr.isNone = true ∧ ¬ k.RecvContract wrs o := by
  intro wrs events k
  have hcall : (k.postRecvCall wrs events).map (fun o =>
        (o.status, o.passed.length, o.badWr.isNone))
      = some (-ENOMEM, 127, true) := by
    decide +kernel
  obtain ⟨o, ho, hout⟩ := Option.map_eq_some_iff.1 hcall
  simp only [Prod.mk.injEq] at hout
  obtain ⟨hstatus, hpassed, hnone⟩ := hout
  refine ⟨o, ho, hstatus, hpassed, hnone, fun h => ?_⟩
  have hfailed : o.status ≠ 0 := by
    rw [hstatus]
    decide
  obtain ⟨bad, hbad, -⟩ := h.badWr hfailed
  rw [hbad] at hnone
  cases hnone

end BxRnic
