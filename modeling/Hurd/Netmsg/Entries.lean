import Hurd.Netmsg.Consistent
import Hurd.Netmsg.Rights

/-!
# What netmsg should hold of a port

netmsg holds either the receive right of a port in `local_port_type`, with a NO SENDERS request, or a
single send right to it, with a DEAD NAME request.  While a message is handled it also has the rights
that have come with the message, and those that are to leave with it.
-/

namespace Hurd.Netmsg

/-- Either the receive right or one send right, and the notification that goes with it -/
inductive Account.OneRight (account : Account) : Prop
  | receive (typed : account.type = some .receive) (held : account.holding.receive = true)
      (noSend : account.holding.send = 0) (asked : account.holding.noSendersRequest = true)
  | send (typed : account.type = some .send) (oneSend : account.holding.send = 1)
      (notHeld : account.holding.receive = false) (asked : account.holding.deadNameRequest = true)

/-- The same, with the send rights and the receive right of a message -/
inductive Account.Holds (account : Account) (sends receives : ℕ) : Prop
  | receive (typed : account.type = some .receive) (held : account.holding.receive = true)
      (sendCount : account.holding.send = sends) (noReceive : receives = 0)
      (asked : account.holding.noSendersRequest = true)
  | send (typed : account.type = some .send) (sendCount : account.holding.send = 1 + sends)
      (fewReceives : receives ≤ 1) (held : account.holding.receive = decide (receives = 1))
      (asked : account.holding.deadNameRequest = true)

/-- What a session has of one name, with the send-once right that it may stand for -/
structure Entry extends Account where
  once : Option Port

/-- Some send rights and perhaps the receive right have arrived. -/
structure Holding.Arrived (before : Holding) (sends receives : ℕ) (after : Holding) : Prop where
  send : after.send = before.send + sends
  receive : after.receive = (before.receive || decide (0 < receives))
  deadNameRequest : after.deadNameRequest = before.deadNameRequest
  noSendersRequest : after.noSendersRequest = before.noSendersRequest

namespace Entry

/-- The rights of a message have come to the name, and they are to leave again. -/
inductive Owes (entry : Entry) (sends receives : ℕ) : Prop
  | known (holds : entry.toAccount.Holds sends receives) (notOnce : entry.once = none)
  | unknown (untyped : entry.type = none) (noSends : sends = 0) (noReceives : receives = 0)
      (once : entry.once ≠ none → entry.holding.receive = true ∧ entry.remote = none)

/-- The rights of a message have come to the name, and are still to be entered. -/
inductive Awaits (entry : Entry) (sends receives : ℕ) : Prop
  | settled (owes : entry.Owes sends receives)
      (proxied : entry.remote = none → sends = 0 ∧ receives = 0)
  | own (untyped : entry.type = none) (unlinked : entry.remote = none) (notOnce : entry.once = none)
      (sendCount : entry.holding.send = sends)
      (held : entry.holding.receive = decide (receives = 1)) (one : sends + receives = 1)

end Entry

namespace Holding

def giveSendOnce (holding : Holding) : Holding := ({ holding with sendOnce := false }).release

variable {holding : Holding}

theorem live_of_receive (held : holding.receive = true) : holding.live = true := by
  simp [live, held]

theorem live_of_send (positive : 0 < holding.send) : holding.live = true := by
  simp [live, positive]

theorem receive_release : holding.release.receive = holding.receive := by
  unfold release
  split_ifs <;> rfl

theorem receive_dropSend : holding.dropSend.receive = holding.receive := by
  unfold dropSend
  split_ifs
  · exact receive_release
  · rfl

theorem receive_giveSendOnce : holding.giveSendOnce.receive = holding.receive :=
  receive_release

theorem release_of_live (isLive : holding.live = true) : holding.release = holding := by
  simp [release, isLive]

theorem dropSend_of_live (positive : 0 < holding.send)
    (isLive : ({ holding with send := holding.send - 1 } : Holding).live = true) :
    holding.dropSend = { holding with send := holding.send - 1 } := by
  rw [dropSend, if_pos positive, release_of_live isLive]

theorem askDeadName_of_live (isLive : holding.live = true) (ask : Bool) :
    holding.askDeadName ask = { holding with deadNameRequest := ask } := by
  rw [askDeadName, if_pos isLive]

theorem makeSend_of_receive (held : holding.receive = true) :
    holding.makeSend = { holding with send := holding.send + 1 } := by
  rw [makeSend, if_pos held]

end Holding

theorem Account.Holds.inUse {account : Account} {sends receives : ℕ}
    (holds : account.Holds sends receives) : account.holding.inUse = true := by
  cases holds with
  | receive _ held => simp [Holding.inUse, Holding.live_of_receive held]
  | send _ sendCount =>
      have positive : 0 < account.holding.send := by omega
      simp [Holding.inUse, Holding.live_of_send positive]

theorem Account.Holds.typed {account : Account} {sends receives : ℕ}
    (holds : account.Holds sends receives) :
    account.type = some .receive ∨ account.type = some .send := by
  cases holds with
  | receive typed => exact .inl typed
  | send typed => exact .inr typed

theorem Account.oneRight_iff {account : Account} : account.OneRight ↔ account.Holds 0 0 := by
  constructor
  · rintro (⟨typed, held, noSend, asked⟩ | ⟨typed, oneSend, notHeld, asked⟩)
    · exact .receive typed held noSend rfl asked
    · exact .send typed oneSend (Nat.zero_le 1) notHeld asked
  · rintro (⟨typed, held, noSend, -, asked⟩ | ⟨typed, oneSend, -, notHeld, asked⟩)
    · exact .receive typed held noSend asked
    · exact .send typed oneSend notHeld asked

namespace Entry

variable {entry : Entry} {account : Account} {sends receives : ℕ}

theorem Owes.of_unused (owes : entry.Owes sends receives) (unused : entry.holding.inUse = false) :
    entry.type = none ∧ sends = 0 ∧ receives = 0 ∧ entry.once = none := by
  cases owes with
  | known holds =>
      rw [holds.inUse] at unused
      cases unused
  | unknown untyped noSends noReceives once =>
      refine ⟨untyped, noSends, noReceives, ?_⟩
      by_contra isOnce
      simp [Holding.inUse, Holding.live_of_receive (once isOnce).1] at unused

theorem Owes.notUnset (owes : entry.Owes sends receives) : entry.type ≠ some .unset := by
  cases owes with
  | known holds => rcases holds.typed with isReceive | isSend <;> simp [*]
  | unknown untyped => simp [untyped]

/-- Of a name without a type, other rights may go. -/
theorem Owes.of_untyped {holding : Holding} (owes : entry.Owes sends receives)
    (untyped : entry.type = none)
    (stillHeld : entry.holding.receive = true → holding.receive = true) :
    Owes { entry with holding := holding } sends receives := by
  cases owes with
  | known holds =>
      rcases holds.typed with isReceive | isSend
      · cases untyped.symm.trans isReceive
      · cases untyped.symm.trans isSend
  | unknown _ noSends noReceives once =>
      exact .unknown untyped noSends noReceives fun isOnce =>
        ⟨stillHeld (once isOnce).1, (once isOnce).2⟩

theorem Awaits.transmitsSend (awaits : entry.Awaits (sends + 1) receives)
    (transmits : entry.toAccount.Transmits .moveSend account) :
    Awaits { account with once := entry.once } sends receives := by
  cases transmits with
  | proxySend linked typed =>
      cases awaits with
      | own untyped =>
          cases untyped.symm.trans typed
      | settled owes =>
          cases owes with
          | unknown untyped =>
              cases untyped.symm.trans typed
          | known holds notOnce =>
              cases holds with
              | send isSend =>
                  cases isSend.symm.trans typed
              | receive _ held sendCount noReceive asked =>
                  have dropped : entry.holding.dropSend =
                      { entry.holding with send := entry.holding.send - 1 } :=
                    Holding.dropSend_of_live (by omega) (Holding.live_of_receive held)
                  refine .settled (.known (.receive typed ?_ ?_ noReceive ?_) notOnce) ?_
                  · simp [dropped, held]
                  · simp [dropped, sendCount]
                  · simp [dropped, asked]
                  · intro unlinked
                    cases unlinked.symm.trans linked
  | ownSend unlinked =>
      cases awaits with
      | settled _ proxied => exact absurd (proxied unlinked).1 (Nat.succ_ne_zero sends)
      | own untyped _ notOnce sendCount held one =>
          have noSends : sends = 0 := by omega
          have noReceives : receives = 0 := by omega
          subst noSends
          subst noReceives
          have isLive : entry.holding.live = true := Holding.live_of_send (by omega)
          have becomes := Holding.askDeadName_of_live isLive true
          refine .settled (.known (.send rfl ?_ (Nat.zero_le 1) ?_ ?_) notOnce) fun _ => ⟨rfl, rfl⟩
          · simp [becomes, sendCount]
          · simp [becomes, held]
          · simp [becomes]

theorem Awaits.transmitsReceive (awaits : entry.Awaits sends (receives + 1))
    (transmits : entry.toAccount.Transmits .moveReceive account) :
    Awaits { account with once := entry.once } sends receives := by
  cases transmits with
  | proxyReceive linked typed isHeld =>
      cases awaits with
      | own untyped =>
          cases untyped.symm.trans typed
      | settled owes =>
          cases owes with
          | unknown untyped =>
              cases untyped.symm.trans typed
          | known holds notOnce =>
              cases holds with
              | receive isReceive =>
                  cases isReceive.symm.trans typed
              | send _ sendCount fewReceives =>
                  have noReceives : receives = 0 := by omega
                  have becomes : ((entry.holding.askNoSenders true).askDeadName false).dropSend =
                      { entry.holding with
                        noSendersRequest := true
                        deadNameRequest := false
                        send := entry.holding.send - 1 } := by
                    have isLive : (entry.holding.askNoSenders true).live = true :=
                      Holding.live_of_receive isHeld
                    rw [Holding.askDeadName_of_live isLive]
                    apply Holding.dropSend_of_live
                    · dsimp only [Holding.askNoSenders]
                      omega
                    · exact Holding.live_of_receive isHeld
                  refine .settled (.known (.receive rfl ?_ ?_ noReceives ?_) notOnce) ?_
                  · simp [becomes, isHeld]
                  · simp [becomes, sendCount]
                  · simp [becomes]
                  · intro unlinked
                    cases unlinked.symm.trans linked
  | ownReceive unlinked isHeld =>
      cases awaits with
      | settled _ proxied => exact absurd (proxied unlinked).2 (Nat.succ_ne_zero receives)
      | own untyped _ notOnce sendCount held one =>
          have noSends : sends = 0 := by omega
          have noReceives : receives = 0 := by omega
          refine .settled (.known (.receive rfl ?_ ?_ noReceives ?_) notOnce) fun _ =>
            ⟨noSends, noReceives⟩
          · simp [Holding.askNoSenders, isHeld]
          · simp [Holding.askNoSenders, sendCount]
          · simp [Holding.askNoSenders]

/-- A send right is made for a name whose type is known then. -/
theorem Owes.translatesSend (owes : entry.Owes sends receives)
    (translates : entry.toAccount.Translates .moveSend account)
    (isSet : account.type ≠ some .unset) :
    Owes { account with once := entry.once } (sends + 1) receives := by
  cases translates with
  | makesSend typed =>
      cases owes with
      | unknown untyped => cases untyped.symm.trans typed
      | known holds notOnce =>
          cases holds with
          | send isSend => cases isSend.symm.trans typed
          | receive _ held sendCount noReceive asked =>
              have becomes := Holding.makeSend_of_receive held
              refine .known (.receive typed ?_ ?_ noReceive ?_) notOnce
              · simp [becomes, held]
              · simp [becomes, sendCount]
              · simp [becomes, asked]
  | copiesSend notReceive =>
      cases owes with
      | unknown untyped => simp [untyped] at isSet
      | known holds notOnce =>
          cases holds with
          | receive isReceive => exact absurd isReceive notReceive
          | send typed sendCount fewReceives held asked =>
              have becomes : entry.holding.copySend =
                  { entry.holding with send := entry.holding.send + 1 } := by
                rw [Holding.copySend, if_pos (by omega)]
              refine .known (.send ?_ ?_ fewReceives ?_ ?_) notOnce
              · simp [typed]
              · simp [becomes, sendCount, Nat.add_assoc]
              · simp [becomes, held]
              · simp [becomes, asked]
  | newSend remote unused =>
      rcases owes.of_unused unused with ⟨-, rfl, rfl, notOnce⟩
      exact .known (.receive rfl rfl rfl rfl rfl) notOnce

/-- A receive right is relayed, or a new one is made. -/
theorem Owes.translatesReceive (owes : entry.Owes sends receives)
    (translates : entry.toAccount.Translates .moveReceive account)
    (isKnown : entry.type ≠ none ∨ entry.holding.inUse = false) :
    Owes { account with once := entry.once } sends (receives + 1) := by
  cases translates with
  | relays notSend isHeld =>
      have becomes : ((entry.holding.askNoSenders false).makeSend).askDeadName true =
          { entry.holding with
            noSendersRequest := false
            send := entry.holding.send + 1
            deadNameRequest := true } := by
        have stillHeld : (entry.holding.askNoSenders false).receive = true := isHeld
        rw [Holding.makeSend_of_receive stillHeld, Holding.askDeadName_of_live]
        · rfl
        · exact Holding.live_of_receive stillHeld
      cases owes with
      | unknown untyped =>
          rcases isKnown with typed | unused
          · exact absurd untyped typed
          · simp [Holding.inUse, Holding.live_of_receive isHeld] at unused
      | known holds notOnce =>
          cases holds with
          | send isSend => exact absurd isSend notSend
          | receive typed held sendCount noReceive asked =>
              subst noReceive
              refine .known (.send rfl ?_ le_rfl ?_ ?_) notOnce
              · simp [becomes, sendCount, Nat.add_comm]
              · simp [becomes, isHeld]
              · simp [becomes]
  | newReceive remote unused =>
      rcases owes.of_unused unused with ⟨-, rfl, rfl, notOnce⟩
      exact .known (.send rfl rfl le_rfl rfl rfl) notOnce

/-- A send right leaves with the message. -/
theorem Owes.leavesSend (owes : entry.Owes (sends + 1) receives) :
    Owes { entry with holding := entry.holding.dropSend } sends receives := by
  cases owes with
  | unknown _ noSends => cases noSends
  | known holds notOnce =>
      have becomes : entry.holding.dropSend =
          { entry.holding with send := entry.holding.send - 1 } := by
        cases holds with
        | receive _ held sendCount =>
            exact Holding.dropSend_of_live (by omega) (Holding.live_of_receive held)
        | send _ sendCount =>
            apply Holding.dropSend_of_live (by omega)
            apply Holding.live_of_send
            dsimp only
            omega
      refine .known ?_ notOnce
      cases holds with
      | receive typed held sendCount noReceive asked =>
          refine .receive typed ?_ ?_ noReceive ?_
          · simp [becomes, held]
          · simp [becomes, sendCount]
          · simp [becomes, asked]
      | send typed sendCount fewReceives held asked =>
          refine .send typed ?_ fewReceives ?_ ?_
          · simp only [becomes]
            omega
          · simp [becomes, held]
          · simp [becomes, asked]

/-- The receive right leaves with the message. -/
theorem Owes.leavesReceive (owes : entry.Owes sends (receives + 1)) :
    Owes { entry with holding := entry.holding.giveReceive } sends receives := by
  cases owes with
  | unknown _ _ noReceives => cases noReceives
  | known holds notOnce =>
      refine .known ?_ notOnce
      cases holds with
      | receive _ _ _ noReceive => cases noReceive
      | send typed sendCount fewReceives held asked =>
          have noReceives : receives = 0 := by omega
          have becomes : ({ entry.holding with receive := false } : Holding).release =
              { entry.holding with receive := false } := by
            apply Holding.release_of_live
            apply Holding.live_of_send
            dsimp only
            omega
          refine .send typed ?_ (by omega) ?_ ?_
          · exact (congrArg Holding.send becomes).trans sendCount
          · refine (congrArg Holding.receive becomes).trans ?_
            simp [noReceives]
          · exact (congrArg Holding.deadNameRequest becomes).trans asked

/-- Only the send-once right changes. -/
theorem Owes.leavesOnce (owes : entry.Owes sends receives) :
    Owes { entry with holding := entry.holding.giveSendOnce } sends receives := by
  cases owes with
  | unknown untyped noSends noReceives once =>
      refine .unknown untyped noSends noReceives ?_
      intro isOnce
      have becomes : ({ entry.holding with sendOnce := false } : Holding).release =
          { entry.holding with sendOnce := false } :=
        Holding.release_of_live (Holding.live_of_receive (once isOnce).1)
      exact ⟨(congrArg Holding.receive becomes).trans (once isOnce).1, (once isOnce).2⟩
  | known holds notOnce =>
      refine .known ?_ notOnce
      have isLive : ({ entry.holding with sendOnce := false } : Holding).live = true := by
        cases holds with
        | receive _ held => exact Holding.live_of_receive held
        | send _ sendCount =>
            apply Holding.live_of_send
            dsimp only
            omega
      have becomes := Holding.release_of_live isLive
      cases holds with
      | receive typed held sendCount noReceive asked =>
          exact .receive typed ((congrArg Holding.receive becomes).trans held)
            ((congrArg Holding.send becomes).trans sendCount) noReceive
            ((congrArg Holding.noSendersRequest becomes).trans asked)
      | send typed sendCount fewReceives held asked =>
          exact .send typed ((congrArg Holding.send becomes).trans sendCount) fewReceives
            ((congrArg Holding.receive becomes).trans held)
            ((congrArg Holding.deadNameRequest becomes).trans asked)

/-- The rights of a message that comes by IPC -/
theorem Owes.arrives {holding : Holding} (owes : entry.Owes 0 0)
    (proxied : entry.remote ≠ none → entry.type ≠ none)
    (arrived : entry.holding.Arrived sends receives holding) (fewReceives : receives ≤ 1)
    (notHeld : 0 < receives → entry.holding.receive = false)
    (ownAlone : entry.remote = none → 0 < sends + receives →
      entry.holding.receive = false ∧ entry.holding.send = 0 ∧ sends + receives = 1) :
    Awaits { entry with holding := holding } sends receives := by
  cases owes with
  | known holds notOnce =>
      have noneOwn : entry.remote = none → sends = 0 ∧ receives = 0 := by
        intro unlinked
        by_contra someRights
        rcases ownAlone unlinked (by omega) with ⟨noReceive, noSend, -⟩
        cases holds with
        | receive _ held => cases noReceive.symm.trans held
        | send _ sendCount => omega
      refine .settled (.known ?_ notOnce) noneOwn
      cases holds with
      | receive typed held sendCount _ asked =>
          have noReceives : receives = 0 := by
            by_contra someReceives
            cases held.symm.trans (notHeld (Nat.pos_of_ne_zero someReceives))
          refine .receive typed ?_ ?_ noReceives (arrived.noSendersRequest.trans asked)
          · rw [arrived.receive, held, Bool.true_or]
          · rw [arrived.send, sendCount, Nat.zero_add]
      | send typed sendCount _ held asked =>
          refine .send typed ?_ fewReceives ?_ (arrived.deadNameRequest.trans asked)
          · rw [arrived.send, sendCount]
          · have isOne : 0 < receives ↔ receives = 1 := by omega
            simp [arrived.receive, held, isOne]
  | unknown untyped _ _ once =>
      have unlinked : entry.remote = none := by
        by_contra linked
        exact proxied linked untyped
      by_cases noRights : sends + receives = 0
      · refine .settled (.unknown untyped (by omega) (by omega) ?_) fun _ => by omega
        intro isOnce
        exact ⟨by rw [arrived.receive, (once isOnce).1, Bool.true_or], unlinked⟩
      · rcases ownAlone unlinked (by omega) with ⟨noReceive, noSend, isOne⟩
        refine .own untyped unlinked ?_ ?_ ?_ isOne
        · by_contra isOnce
          cases noReceive.symm.trans (once isOnce).1
        · rw [arrived.send, noSend, Nat.zero_add]
        · have isReceive : 0 < receives ↔ receives = 1 := by omega
          simp [arrived.receive, noReceive, isReceive]

/-- The rights of a message that is discarded stay under names without a type. -/
theorem Owes.discards {holding : Holding} (owes : entry.Owes 0 0)
    (arrived : entry.holding.Arrived sends receives holding)
    (untouched : entry.type ≠ none → sends = 0 ∧ receives = 0) :
    Owes { entry with holding := holding } 0 0 := by
  cases owes with
  | known holds notOnce =>
      have typed : entry.type ≠ none := by
        rcases holds.typed with isReceive | isSend <;> simp [*]
      rcases untouched typed with ⟨rfl, rfl⟩
      refine .known ?_ notOnce
      cases holds with
      | receive typed held sendCount noReceive asked =>
          refine .receive typed ?_ (arrived.send.trans sendCount) rfl
            (arrived.noSendersRequest.trans asked)
          simp [arrived.receive, held]
      | send typed sendCount fewReceives held asked =>
          refine .send typed (arrived.send.trans sendCount) fewReceives ?_
            (arrived.deadNameRequest.trans asked)
          simp [arrived.receive, held]
  | unknown untyped _ _ once =>
      refine .unknown untyped rfl rfl fun isOnce => ⟨?_, (once isOnce).2⟩
      simp [arrived.receive, (once isOnce).1]

theorem Awaits.owes (awaits : entry.Awaits 0 0) : entry.Owes 0 0 := by
  cases awaits with
  | settled owes => exact owes
  | own _ _ _ _ _ one => cases one

end Entry

end Hurd.Netmsg
