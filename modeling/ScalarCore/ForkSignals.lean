import ScalarCore.Fork

namespace ScalarCore

/-!
# The order of fork signals

A vote replaces the one counted for its node before, whatever epoch the two
were signed for.  What is counted is therefore the vote delivered last, and
the order of delivery matters exactly as far as it decides which one that is.
-/

namespace ForkProposal

/-- A vote with the power it is counted with. -/
abbrev Delivery :=
  ForkSignalMessage × UInt64

/-- The node of a delivered vote. -/
def Delivery.nodeId (delivery : Delivery) : Bytes32 :=
  delivery.1.nodeId

/-- The epoch that a delivered vote was signed for. -/
def Delivery.epoch (delivery : Delivery) : Nat :=
  delivery.1.epochId.toNat

/-- What a delivered vote is counted as. -/
def Delivery.signal (delivery : Delivery) : NodeSignal :=
  counted delivery.1 delivery.2

/-- Add votes in the order of their delivery. -/
def deliver
    (verifySignature : List UInt8 → List UInt8 → List UInt8 → Option Bool)
    (proposal : ForkProposal)
    (deliveries : List Delivery) : Except ForkError ForkProposal :=
  deliveries.foldlM
    (fun voted delivery =>
      voted.addSignal verifySignature delivery.1 delivery.2)
    proposal

/-- There is one vote for each node and epoch. -/
def OnePerEpoch (deliveries : List Delivery) : Prop :=
  ∀ delivery ∈ deliveries, ∀ delivery' ∈ deliveries,
    delivery.nodeId = delivery'.nodeId →
    delivery.epoch = delivery'.epoch →
    delivery = delivery'

/-- A vote is the one of the highest epoch of its node. -/
def IsHighest (deliveries : List Delivery) (delivery : Delivery) : Prop :=
  ∀ delivery' ∈ deliveries,
    delivery'.nodeId = delivery.nodeId →
    delivery'.epoch ≤ delivery.epoch

/-- Two proposals have the same shares and count the highest epochs. -/
structure CountHighest
    (deliveries : List Delivery)
    (voted voted' : ForkProposal) : Prop where
  commit : voted.commitFractionFp = voted'.commitFractionFp
  abort : voted.abortFractionFp = voted'.abortFractionFp
  highest :
    ∀ delivery ∈ deliveries,
      IsHighest deliveries delivery →
      voted.signals.lookup delivery.nodeId = some delivery.signal ∧
        voted'.signals.lookup delivery.nodeId = some delivery.signal

/-- In a list of votes the one of the highest epoch comes last, by node. -/
def HighestLast (deliveries : List Delivery) : Prop :=
  KeyedWrites.GreatestLast Delivery.nodeId Delivery.epoch deliveries

variable
  {verifySignature : List UInt8 → List UInt8 → List UInt8 → Option Bool}
  {proposal : ForkProposal}
  {deliveries deliveries' : List Delivery}

/-- Valid votes on an open fork are all counted, one after the other. -/
theorem deliver_of_valid
    (isOpen : proposal.state.isOpen = true)
    (valid :
      ∀ delivery ∈ deliveries,
        delivery.1.verifySig verifySignature = true) :
    proposal.deliver verifySignature deliveries =
      .ok
        { proposal with
          signals :=
            KeyedWrites.writeAll Delivery.nodeId Delivery.signal
              proposal.signals deliveries } := by
  induction deliveries generalizing proposal with
  | nil =>
      rfl
  | cons delivery rest inductionHypothesis =>
      have counts :=
        addSignal_of_valid isOpen (valid _ List.mem_cons_self) delivery.2
      have restValid :
          ∀ later ∈ rest, later.1.verifySig verifySignature = true :=
        fun later listed => valid later (List.mem_cons_of_mem _ listed)
      have restDelivered :
          (proposal.insertSignal delivery.1 delivery.2).deliver
              verifySignature rest =
            _ :=
        inductionHypothesis isOpen restValid
      calc proposal.deliver verifySignature (delivery :: rest)
          = (proposal.insertSignal delivery.1 delivery.2).deliver
              verifySignature rest := by
            rw [deliver, List.foldlM_cons, counts]
            rfl
        _ = _ := restDelivered

/-- The shares are read off the counted votes. -/
theorem fractionFp_congr
    {signals signals' : NodeSignals}
    (same : signals = signals')
    (kind : SignalType) :
    fractionFp { proposal with signals := signals } kind =
      fractionFp { proposal with signals := signals' } kind := by
  rw [same]

/-- The highest epoch of a node is counted when it is delivered last. -/
theorem lookup_of_isHighest
    (onePerEpoch : OnePerEpoch deliveries)
    (highestLast : HighestLast deliveries)
    {delivery : Delivery}
    (listed : delivery ∈ deliveries)
    (isHighest : IsHighest deliveries delivery) :
    (KeyedWrites.writeAll Delivery.nodeId Delivery.signal
        proposal.signals deliveries).lookup delivery.nodeId =
      some delivery.signal := by
  rw [KeyedWrites.lookup_writeAll,
    KeyedWrites.lastFor_eq_of_greatest onePerEpoch highestLast listed
      isHighest,
    Option.map_some, Option.some_or]

/-- One vote for each node and epoch, in any order. -/
theorem OnePerEpoch.of_perm
    (onePerEpoch : OnePerEpoch deliveries)
    (same : deliveries.Perm deliveries') :
    OnePerEpoch deliveries' :=
  fun delivery listed delivery' listed' =>
    onePerEpoch delivery (same.mem_iff.mpr listed)
      delivery' (same.mem_iff.mpr listed')

/-- The highest epochs are the same in any order. -/
theorem IsHighest.of_perm
    {delivery : Delivery}
    (isHighest : IsHighest deliveries delivery)
    (same : deliveries.Perm deliveries') :
    IsHighest deliveries' delivery :=
  fun delivery' listed =>
    isHighest delivery' (same.mem_iff.mpr listed)

/--
The vote delivered last is the one counted for its node.  Two orders of the
same valid votes lead to the same shares when they end, for each node, in the
same vote; when that is the vote of the highest epoch, it is the one counted.
-/
theorem counts_last_delivery
    (verifySignature : List UInt8 → List UInt8 → List UInt8 → Option Bool)
    {proposal : ForkProposal}
    (isOpen : proposal.state.isOpen = true)
    {deliveries deliveries' : List Delivery}
    (same : deliveries.Perm deliveries')
    (onePerEpoch : OnePerEpoch deliveries)
    (valid :
      ∀ delivery ∈ deliveries,
        delivery.1.verifySig verifySignature = true) :
    ∃ voted voted',
      proposal.deliver verifySignature deliveries = .ok voted ∧
        proposal.deliver verifySignature deliveries' = .ok voted' ∧
        (∀ nodeId,
          voted.signals.lookup nodeId =
            ((KeyedWrites.lastFor Delivery.nodeId nodeId deliveries).map
              Delivery.signal).or (proposal.signals.lookup nodeId)) ∧
        ((∀ nodeId,
            KeyedWrites.lastFor Delivery.nodeId nodeId deliveries =
              KeyedWrites.lastFor Delivery.nodeId nodeId deliveries') →
          voted.commitFractionFp = voted'.commitFractionFp ∧
            voted.abortFractionFp = voted'.abortFractionFp) ∧
        (HighestLast deliveries →
          HighestLast deliveries' →
          CountHighest deliveries voted voted') := by
  have valid' :
      ∀ delivery ∈ deliveries',
        delivery.1.verifySig verifySignature = true :=
    fun delivery listed => valid delivery (same.mem_iff.mpr listed)
  have agree
      (sameLast :
        ∀ nodeId,
          KeyedWrites.lastFor Delivery.nodeId nodeId deliveries =
            KeyedWrites.lastFor Delivery.nodeId nodeId deliveries') :
      KeyedWrites.writeAll Delivery.nodeId Delivery.signal
          proposal.signals deliveries =
        KeyedWrites.writeAll Delivery.nodeId Delivery.signal
          proposal.signals deliveries' :=
    KeyedWrites.writeAll_congr sameLast proposal.signals
  refine
    ⟨_, _, deliver_of_valid isOpen valid, deliver_of_valid isOpen valid',
      KeyedWrites.lookup_writeAll _ _, ?_, ?_⟩
  · intro sameLast
    exact
      ⟨fractionFp_congr (agree sameLast) .commit,
        fractionFp_congr (agree sameLast) .abort⟩
  · intro highestLast highestLast'
    have sameLast :=
      KeyedWrites.lastFor_eq_of_perm same onePerEpoch highestLast
        highestLast'
    exact
      { commit := fractionFp_congr (agree sameLast) .commit
        abort := fractionFp_congr (agree sameLast) .abort
        highest := fun delivery listed isHighest =>
          ⟨lookup_of_isHighest onePerEpoch highestLast listed isHighest,
            lookup_of_isHighest (onePerEpoch.of_perm same) highestLast'
              (same.mem_iff.mp listed) (isHighest.of_perm same)⟩ }

/-- A vote to commit, signed for epoch 10. -/
def commitVote : Delivery :=
  ({ nodeId := Bytes32.endingIn 1
     epochId := 10
     forkHash := Bytes32.zero
     signalType := .commit
     timestamp := 1000000
     signature := [1]
     publicKey := [1] }, 1)

/-- A vote of the same node to abort, signed for epoch 11. -/
def abortVote : Delivery :=
  ({ nodeId := Bytes32.endingIn 1
     epochId := 11
     forkHash := Bytes32.zero
     signalType := .abort
     timestamp := 1000001
     signature := [1]
     publicKey := [1] }, 1)

/-- The fork the two votes are about, with all power at their node. -/
def votedFork : ForkProposal :=
  new Bytes32.zero .normal 10 1000000 1

/-- The two votes are of different epochs. -/
theorem onePerEpoch_votes : OnePerEpoch [commitVote, abortVote] := by
  unfold OnePerEpoch
  decide

/-- The later of two delivered votes is the one counted. -/
theorem counts_last_vote :
    ∃ voted,
      votedFork.deliver (fun _ _ _ => some true) [commitVote, abortVote] =
          .ok voted ∧
        voted.signals.lookup (Bytes32.endingIn 1) =
          some { signalType := .abort, governancePowerFp := 1 } := by
  obtain ⟨voted, _, delivered, _, counted, _⟩ :=
    counts_last_delivery (fun _ _ _ => some true)
      (show votedFork.state.isOpen = true from rfl)
      (List.Perm.swap abortVote commitVote [])
      onePerEpoch_votes
      (by decide)
  exact ⟨voted, delivered, counted (Bytes32.endingIn 1)⟩

/--
A vote for epoch 10 that arrives after the one for epoch 11 is counted, so the
two orders of delivery lead to different shares.
-/
theorem order_independence_broken :
    ¬ ∀ verifySignature (proposal : ForkProposal)
        (deliveries deliveries' : List Delivery),
        proposal.state.isOpen = true →
        deliveries.Perm deliveries' →
        OnePerEpoch deliveries →
        (∀ delivery ∈ deliveries,
          delivery.1.verifySig verifySignature = true) →
        ∃ voted voted',
          proposal.deliver verifySignature deliveries = .ok voted ∧
            proposal.deliver verifySignature deliveries' = .ok voted' ∧
            CountHighest deliveries voted voted' := by
  intro always
  obtain ⟨voted, voted', delivered, delivered', agree⟩ :=
    always (fun _ _ _ => some true) votedFork
      [commitVote, abortVote] [abortVote, commitVote]
      rfl (List.Perm.swap abortVote commitVote []) onePerEpoch_votes
      (by decide)
  have firstOrder :
      votedFork.deliver (fun _ _ _ => some true) [commitVote, abortVote] =
        .ok
          ((votedFork.insertSignal commitVote.1 1).insertSignal
            abortVote.1 1) :=
    rfl
  have secondOrder :
      votedFork.deliver (fun _ _ _ => some true) [abortVote, commitVote] =
        .ok
          ((votedFork.insertSignal abortVote.1 1).insertSignal
            commitVote.1 1) :=
    rfl
  rw [firstOrder] at delivered
  rw [secondOrder] at delivered'
  cases delivered
  cases delivered'
  exact absurd agree.commit (by decide)

end ForkProposal

end ScalarCore
