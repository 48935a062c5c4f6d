import Hurd.Netmsg.Discarded
import Hurd.Netmsg.Entering

/-!
# What netmsg must have of a port

To relay the rights of a port netmsg must have the receive right of a port that `local_port_type`
calls RECEIVE, and a send right to one that it calls SEND.  While a message is translated there are
also the rights that have come with it, and those that are to leave.
-/

namespace Hurd.Netmsg

namespace Holding

variable {holding : Holding}

@[simp]
theorem send_release : holding.release.send = holding.send := by
  unfold release
  split_ifs <;> rfl

@[simp]
theorem noSendersRequest_release : holding.release.noSendersRequest = holding.noSendersRequest := by
  unfold release
  split_ifs <;> rfl

theorem deadNameRequest_release (notAsked : holding.deadNameRequest = false) :
    holding.release.deadNameRequest = false := by
  unfold release
  split_ifs
  · exact notAsked
  · rfl

theorem send_dropSend : holding.dropSend.send = holding.send - 1 := by
  unfold dropSend
  split_ifs
  · simp
  · omega

theorem noSendersRequest_dropSend :
    holding.dropSend.noSendersRequest = holding.noSendersRequest := by
  unfold dropSend
  split_ifs
  · simp
  · rfl

theorem deadNameRequest_dropSend (notAsked : holding.deadNameRequest = false) :
    holding.dropSend.deadNameRequest = false := by
  unfold dropSend
  split_ifs
  · exact deadNameRequest_release notAsked
  · exact notAsked

@[simp]
theorem receive_askDeadName (ask : Bool) : (holding.askDeadName ask).receive = holding.receive := by
  unfold askDeadName
  split_ifs <;> rfl

@[simp]
theorem noSendersRequest_askDeadName (ask : Bool) :
    (holding.askDeadName ask).noSendersRequest = holding.noSendersRequest := by
  unfold askDeadName
  split_ifs <;> rfl

theorem inUse_of_receive (held : holding.receive = true) : holding.inUse = true := by
  simp [inUse, live_of_receive held]

theorem inUse_of_send (positive : 0 < holding.send) : holding.inUse = true := by
  simp [inUse, live_of_send positive]

end Holding

namespace Account

/--
What netmsg has of a port is enough, with so many rights that are to leave.  It always has the
receive rights of its own ports.
-/
structure Backs (own : Prop) (account : Account) (sends receives : ℕ) : Prop where
  isSet : account.type ≠ some .unset
  untyped : account.type = none → account.remote = none ∧ sends = 0 ∧ receives = 0
  forReceive : account.type = some .receive →
    account.holding.receive = true ∧ sends ≤ account.holding.send ∧ receives = 0
  forSend : account.type = some .send → sends < account.holding.send ∧ receives ≤ 1
  heldFor : account.holding.receive = true → own ∨ account.type = some .receive ∨ receives = 1
  quiet : account.remote ≠ none → account.type = some .receive →
    account.holding.deadNameRequest = false
  owned : own → account.holding.receive = true ∧ account.holding.noSendersRequest = false ∧
    account.remote = none ∧ account.type ≠ some .receive ∧ receives = 0

/-- The same, with so many rights that have come and are still to be entered. -/
structure Takes (own : Prop) (account : Account) (sends receives : ℕ) : Prop where
  isSet : account.type ≠ some .unset
  untyped : account.type = none → account.remote = none
  forReceive : account.type = some .receive → account.holding.receive = true ∧ receives = 0
  forSend : account.type = some .send → 0 < account.holding.send
  sent : 0 < sends → account.remote = none → 0 < account.holding.send
  received : 0 < receives → account.holding.receive = true ∧ receives = 1
  heldFor : account.holding.receive = true → own ∨ account.type = some .receive ∨ receives = 1
  quiet : account.remote ≠ none → account.type = some .receive →
    account.holding.deadNameRequest = false
  owned : own → account.holding.receive = true ∧ account.holding.noSendersRequest = false ∧
    account.remote = none ∧ account.type ≠ some .receive ∧ receives = 0

variable {own : Prop} {account next : Account} {sends receives : ℕ}

theorem typed_of_set {type : Option LocalType} (isSet : type ≠ some .unset)
    (isTyped : type ≠ none) : type = some .receive ∨ type = some .send := by
  rcases type with _ | type
  · exact absurd rfl isTyped
  · cases type with
    | unset => exact absurd rfl isSet
    | receive => exact .inl rfl
    | send => exact .inr rfl

/-- The kernel does not hand out a name that has an entry. -/
theorem Backs.inUse (backs : Backs own account sends receives) (isTyped : account.type ≠ none) :
    account.holding.inUse = true := by
  rcases typed_of_set backs.isSet isTyped with isReceive | isSend
  · exact Holding.inUse_of_receive (backs.forReceive isReceive).1
  · exact Holding.inUse_of_send (Nat.zero_lt_of_lt (backs.forSend isSend).1)

/-- There is nothing of a name that the kernel can hand out. -/
theorem Backs.of_unused (backs : Backs own account sends receives)
    (unused : account.holding.inUse = false) :
    sends = 0 ∧ receives = 0 ∧ ¬own := by
  have isUntyped : account.type = none := by
    by_contra isTyped
    cases unused.symm.trans (backs.inUse isTyped)
  rcases backs.untyped isUntyped with ⟨_, noSends, noReceives⟩
  refine ⟨noSends, noReceives, fun isOwn => ?_⟩
  cases unused.symm.trans (Holding.inUse_of_receive (backs.owned isOwn).1)

theorem Takes.of_arrived {holding : Holding} (backs : Backs own account 0 0)
    (arrived : account.holding.Arrived sends receives holding) (oneReceive : receives ≤ 1)
    (notHeld : 0 < receives → account.holding.receive = false) :
    Takes own { account with holding := holding } sends receives where
  isSet := backs.isSet
  untyped isUntyped := (backs.untyped isUntyped).1
  forReceive isReceive := by
    have held := (backs.forReceive isReceive).1
    refine ⟨by rw [arrived.receive, held, Bool.true_or], ?_⟩
    by_contra someReceives
    cases held.symm.trans (notHeld (Nat.pos_of_ne_zero someReceives))
  forSend isSend := by
    have positive := (backs.forSend isSend).1
    have sum := arrived.send
    dsimp only
    omega
  sent someSends _ := by
    have sum := arrived.send
    dsimp only
    omega
  received someReceives := by
    refine ⟨?_, by omega⟩
    simp [arrived.receive, someReceives]
  heldFor held := by
    have eitherHeld : account.holding.receive = true ∨ 0 < receives := by
      simpa [arrived.receive] using held
    rcases eitherHeld with before | someReceives
    · rcases backs.heldFor before with isOwn | isReceive | isOne
      · exact .inl isOwn
      · exact .inr (.inl isReceive)
      · cases isOne
    · exact .inr (.inr (by omega))
  quiet linked isReceive := arrived.deadNameRequest.trans (backs.quiet linked isReceive)
  owned isOwn := by
    rcases backs.owned isOwn with ⟨held, notAsked, unlinked, notReceive, _⟩
    refine ⟨by rw [arrived.receive, held, Bool.true_or],
      arrived.noSendersRequest.trans notAsked, unlinked, notReceive, ?_⟩
    by_contra someReceives
    cases held.symm.trans (notHeld (Nat.pos_of_ne_zero someReceives))

theorem Takes.backs (takes : Takes own account 0 0) : Backs own account 0 0 where
  isSet := takes.isSet
  untyped isUntyped := ⟨takes.untyped isUntyped, rfl, rfl⟩
  forReceive isReceive := ⟨(takes.forReceive isReceive).1, Nat.zero_le _, rfl⟩
  forSend isSend := ⟨takes.forSend isSend, Nat.zero_le 1⟩
  heldFor := takes.heldFor
  quiet := takes.quiet
  owned := takes.owned

/-- A send right goes out of a port whose receive right is on the side that it should be on. -/
theorem Takes.transmitsSend (takes : Takes own account (sends + 1) receives)
    (transmitted : account.Transmits .moveSend next)
    (notLent : account.remote = none → account.type ≠ some .receive) :
    Takes own next sends receives := by
  cases transmitted with
  | @proxySend remote linked isReceive =>
      have notNone : account.remote ≠ none := by simp [linked]
      rcases takes.forReceive isReceive with ⟨held, noReceives⟩
      exact {
        isSet := takes.isSet
        untyped := takes.untyped
        forReceive := fun _ => ⟨Holding.receive_dropSend.trans held, noReceives⟩
        forSend := fun isSend => by cases isReceive.symm.trans isSend
        sent := fun _ unlinked => absurd unlinked notNone
        received := fun someReceives => by omega
        heldFor := fun _ => .inr (.inl isReceive)
        quiet := fun _ _ => Holding.deadNameRequest_dropSend (takes.quiet notNone isReceive)
        owned := fun isOwn => absurd (takes.owned isOwn).2.2.1 notNone }
  | ownSend unlinked =>
      have positive := takes.sent (Nat.succ_pos sends) unlinked
      exact {
        isSet := by simp
        untyped := by simp
        forReceive := by simp
        forSend := fun _ => by simpa using positive
        sent := fun _ _ => by simpa using positive
        received := fun someReceives => by simpa using takes.received someReceives
        heldFor := fun held => by
          rcases takes.heldFor (by simpa using held) with isOwn | isReceive | isOne
          · exact .inl isOwn
          · exact absurd isReceive (notLent unlinked)
          · exact .inr (.inr isOne)
        quiet := fun linked => absurd unlinked linked
        owned := fun isOwn => by
          rcases takes.owned isOwn with ⟨held, notAsked, _, _, noReceives⟩
          exact ⟨by simpa using held, by simpa using notAsked, unlinked, by simp, noReceives⟩ }

theorem Takes.transmitsReceive (takes : Takes own account sends (receives + 1))
    (transmitted : account.Transmits .moveReceive next) : Takes own next sends receives := by
  rcases takes.received (Nat.succ_pos receives) with ⟨_, isOne⟩
  have noReceives : receives = 0 := by omega
  have notOwn : ¬own := fun isOwn => absurd (takes.owned isOwn).2.2.2.2 (by omega)
  cases transmitted with
  | @proxyReceive remote linked isSend held =>
      have notNone : account.remote ≠ none := by simp [linked]
      have isLive : (account.holding.askNoSenders true).live = true := Holding.live_of_receive held
      have heldStill :
          (((account.holding.askNoSenders true).askDeadName false).dropSend).receive = true := by
        rw [Holding.receive_dropSend, Holding.receive_askDeadName]
        exact held
      exact {
        isSet := by simp
        untyped := by simp
        forReceive := fun _ => ⟨heldStill, noReceives⟩
        forSend := by simp
        sent := fun _ unlinked => absurd unlinked notNone
        received := fun someReceives => by omega
        heldFor := fun _ => .inr (.inl rfl)
        quiet := fun _ _ => by
          apply Holding.deadNameRequest_dropSend
          rw [Holding.askDeadName_of_live isLive]
        owned := fun isOwn => absurd isOwn notOwn }
  | ownReceive unlinked held =>
      exact {
        isSet := by simp
        untyped := by simp
        forReceive := fun _ => ⟨held, noReceives⟩
        forSend := by simp
        sent := takes.sent
        received := fun someReceives => by omega
        heldFor := fun _ => .inr (.inl rfl)
        quiet := fun linked => absurd unlinked linked
        owned := fun isOwn => absurd isOwn notOwn }

theorem Backs.translatesSend (backs : Backs own account sends receives)
    (translated : account.Translates .moveSend next) (isSet : next.type ≠ some .unset) :
    Backs own next (sends + 1) receives := by
  cases translated with
  | makesSend isReceive =>
      rcases backs.forReceive isReceive with ⟨held, enough, noReceives⟩
      rw [Holding.makeSend_of_receive held]
      exact {
        isSet := backs.isSet
        untyped := fun isUntyped => by cases isReceive.symm.trans isUntyped
        forReceive := fun _ => ⟨held, Nat.succ_le_succ enough, noReceives⟩
        forSend := fun isSend => by cases isReceive.symm.trans isSend
        heldFor := backs.heldFor
        quiet := backs.quiet
        owned := backs.owned }
  | copiesSend notReceive =>
      have isSend : account.type = some .send := by
        cases type : account.type with
        | none => simp [type] at isSet
        | some type' =>
            rcases typed_of_set backs.isSet (by simp [type]) with isReceive | isSend
            · exact absurd isReceive notReceive
            · exact type.symm.trans isSend
      rcases backs.forSend isSend with ⟨enough, oneReceive⟩
      have positive : 0 < account.holding.send := by omega
      have stillSend : some (account.type.getD .unset) = some .send := by simp [isSend]
      rw [Holding.copySend, if_pos positive]
      exact {
        isSet := isSet
        untyped := by simp
        forReceive := fun isReceive => by cases stillSend.symm.trans isReceive
        forSend := fun _ => ⟨Nat.succ_lt_succ enough, oneReceive⟩
        heldFor := fun held => by
          rcases backs.heldFor held with isOwn | isReceive | isOne
          · exact .inl isOwn
          · exact absurd isReceive notReceive
          · exact .inr (.inr isOne)
        quiet := fun _ isReceive => by cases stillSend.symm.trans isReceive
        owned := fun isOwn => by
          rcases backs.owned isOwn with ⟨held, notAsked, unlinked, _, noReceives⟩
          exact ⟨held, notAsked, unlinked, by simp [isSend], noReceives⟩ }
  | newSend remote unused =>
      rcases backs.of_unused unused with ⟨rfl, rfl, notOwn⟩
      exact {
        isSet := by simp
        untyped := by simp
        forReceive := fun _ => ⟨rfl, le_rfl, rfl⟩
        forSend := by simp
        heldFor := fun _ => .inr (.inl rfl)
        quiet := fun _ _ => rfl
        owned := fun isOwn => absurd isOwn notOwn }

theorem Backs.translatesReceive (backs : Backs own account sends receives)
    (translated : account.Translates .moveReceive next)
    (isKnown : account.type = none → account.holding.inUse = false) :
    Backs own next sends (receives + 1) := by
  cases translated with
  | relays notSend held =>
      have isReceive : account.type = some .receive := by
        by_contra notReceive
        have isUntyped : account.type = none := by
          by_contra isTyped
          rcases typed_of_set backs.isSet isTyped with isReceive | isSend
          · exact notReceive isReceive
          · exact notSend isSend
        cases (isKnown isUntyped).symm.trans (Holding.inUse_of_receive held)
      rcases backs.forReceive isReceive with ⟨_, enough, noReceives⟩
      have oneMore : (((account.holding.askNoSenders false).makeSend).askDeadName true).send =
          account.holding.send + 1 := by
        have heldStill : (account.holding.askNoSenders false).receive = true := held
        rw [Holding.send_askDeadName, Holding.makeSend_of_receive heldStill]
        rfl
      exact {
        isSet := by simp
        untyped := by simp
        forReceive := by simp
        forSend := fun _ => ⟨by dsimp only; omega, by omega⟩
        heldFor := fun _ => .inr (.inr (by omega))
        quiet := by simp
        owned := fun isOwn => absurd isReceive (backs.owned isOwn).2.2.2.1 }
  | newReceive remote unused =>
      rcases backs.of_unused unused with ⟨rfl, rfl, notOwn⟩
      exact {
        isSet := by simp
        untyped := by simp
        forReceive := by simp
        forSend := fun _ => ⟨Nat.one_pos, le_rfl⟩
        heldFor := fun _ => .inr (.inr rfl)
        quiet := by simp
        owned := fun isOwn => absurd isOwn notOwn }

theorem Backs.leavesSend (backs : Backs own account (sends + 1) receives) :
    Backs own { account with holding := account.holding.dropSend } sends receives where
  isSet := backs.isSet
  untyped isUntyped := by cases (backs.untyped isUntyped).2.1
  forReceive isReceive := by
    rcases backs.forReceive isReceive with ⟨held, enough, noReceives⟩
    simp only [Holding.receive_dropSend, Holding.send_dropSend]
    exact ⟨held, by omega, noReceives⟩
  forSend isSend := by
    rcases backs.forSend isSend with ⟨enough, oneReceive⟩
    simp only [Holding.send_dropSend]
    exact ⟨by omega, oneReceive⟩
  heldFor held := backs.heldFor (Holding.receive_dropSend.symm.trans held)
  quiet linked isReceive := Holding.deadNameRequest_dropSend (backs.quiet linked isReceive)
  owned isOwn := by
    simpa [Holding.receive_dropSend, Holding.noSendersRequest_dropSend] using backs.owned isOwn

theorem Backs.leavesReceive (backs : Backs own account sends (receives + 1)) :
    Backs own { account with holding := account.holding.giveReceive } sends receives where
  isSet := backs.isSet
  untyped isUntyped := by cases (backs.untyped isUntyped).2.2
  forReceive isReceive := by cases (backs.forReceive isReceive).2.2
  forSend isSend := by
    rcases backs.forSend isSend with ⟨enough, oneReceive⟩
    refine ⟨?_, by omega⟩
    simpa [Holding.giveReceive] using enough
  heldFor held := by
    have notHeld : account.holding.giveReceive.receive = false := Holding.receive_release
    cases notHeld.symm.trans held
  quiet _ isReceive := by cases (backs.forReceive isReceive).2.2
  owned isOwn := by cases (backs.owned isOwn).2.2.2.2

/-- A receive right without senders is destroyed, and its entries erased. -/
theorem Backs.destroyed (backs : Backs own account 0 0) (isReceive : account.type = some .receive) :
    Backs own ⟨none, none, account.holding.destroyReceive⟩ 0 0 where
  isSet := by simp
  untyped _ := ⟨rfl, rfl, rfl⟩
  forReceive := by simp
  forSend := by simp
  heldFor stillHeld := by
    have held := (backs.forReceive isReceive).1
    simp [Holding.destroyReceive, held] at stillHeld
  quiet := by simp
  owned isOwn := absurd isReceive (backs.owned isOwn).2.2.2.1

/-- A send right is dropped when the other side has no senders, and its entries erased. -/
theorem Backs.dropped (backs : Backs own account 0 0) (isSend : account.type = some .send) :
    Backs own ⟨none, none, (account.holding.askDeadName false).dropSend⟩ 0 0 where
  isSet := by simp
  untyped _ := ⟨rfl, rfl, rfl⟩
  forReceive := by simp
  forSend := by simp
  heldFor held := by
    rw [Holding.receive_dropSend, Holding.receive_askDeadName] at held
    rcases backs.heldFor held with isOwn | isReceive | isOne
    · exact .inl isOwn
    · cases isSend.symm.trans isReceive
    · cases isOne
  quiet := by simp
  owned isOwn := by
    rcases backs.owned isOwn with ⟨held, notAsked, _⟩
    rw [Holding.receive_dropSend, Holding.receive_askDeadName, Holding.noSendersRequest_dropSend,
      Holding.noSendersRequest_askDeadName]
    exact ⟨held, notAsked, rfl, by simp, rfl⟩

/-- No DEAD NAME notification is asked for with a send right. -/
theorem Translates.quiet (translated : account.Translates .moveSend next)
    (notAsked : account.holding.deadNameRequest = false) :
    next.holding.deadNameRequest = false := by
  cases translated with
  | makesSend =>
      dsimp only [Holding.makeSend]
      split_ifs
      · exact notAsked
      · exact notAsked
  | copiesSend =>
      dsimp only [Holding.copySend]
      split_ifs
      · exact notAsked
      · exact notAsked
  | newSend => rfl

/-- Another holding with the same rights and requests will do as well. -/
theorem Backs.of_holding {holding : Holding} (backs : Backs own account sends receives)
    (sameReceive : holding.receive = account.holding.receive)
    (sameSend : holding.send = account.holding.send)
    (sameRequest : holding.noSendersRequest = account.holding.noSendersRequest)
    (quiet : account.holding.deadNameRequest = false → holding.deadNameRequest = false) :
    Backs own { account with holding := holding } sends receives where
  isSet := backs.isSet
  untyped := backs.untyped
  forReceive isReceive := by simpa [sameReceive, sameSend] using backs.forReceive isReceive
  forSend isSend := by simpa [sameSend] using backs.forSend isSend
  heldFor held := backs.heldFor (sameReceive.symm.trans held)
  quiet linked isReceive := quiet (backs.quiet linked isReceive)
  owned isOwn := by simpa [sameReceive, sameRequest] using backs.owned isOwn

theorem Backs.leavesOnce (backs : Backs own account sends receives) :
    Backs own { account with holding := account.holding.giveSendOnce } sends receives :=
  backs.of_holding Holding.receive_giveSendOnce Holding.send_release
    Holding.noSendersRequest_release fun notAsked => Holding.deadNameRequest_release notAsked

/-- Send rights that do not leave stay. -/
theorem Backs.stays (backs : Backs own account sends 0) : Backs own account 0 0 where
  isSet := backs.isSet
  untyped isUntyped := ⟨(backs.untyped isUntyped).1, rfl, rfl⟩
  forReceive isReceive := ⟨(backs.forReceive isReceive).1, Nat.zero_le _, rfl⟩
  forSend isSend := ⟨Nat.zero_lt_of_lt (backs.forSend isSend).1, Nat.zero_le 1⟩
  heldFor := backs.heldFor
  quiet := backs.quiet
  owned := backs.owned

/-- The right that a message is sent with may leave if nothing is known of its port. -/
theorem Backs.leavesDestination (backs : Backs own account sends receives)
    (isUntyped : account.type = none) :
    Backs own { account with holding := account.holding.dropSend } sends receives where
  isSet := backs.isSet
  untyped := backs.untyped
  forReceive isReceive := by cases isUntyped.symm.trans isReceive
  forSend isSend := by cases isUntyped.symm.trans isSend
  heldFor held := backs.heldFor (Holding.receive_dropSend.symm.trans held)
  quiet _ isReceive := by cases isUntyped.symm.trans isReceive
  owned isOwn := by
    simpa [Holding.receive_dropSend, Holding.noSendersRequest_dropSend] using backs.owned isOwn

end Account

end Hurd.Netmsg
