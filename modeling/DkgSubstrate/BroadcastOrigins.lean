import DkgSubstrate.GossipMessages

/-!
The set against which the origin of a broadcast is checked.  It is chosen by the session of the
latest keygen that the node has started, and not by the ids of the sets.
-/

namespace DkgSubstrate.BroadcastOrigins

open DkgSubstrate.ChainHeader
open DkgSubstrate.GossipMessages
open DkgSubstrate.IncomingMessages hiding Node
open DkgSubstrate.KeygenManager hiding Config State step Event
open DkgSubstrate.Metadata hiding Config
open DkgSubstrate.Primitives
open DkgSubstrate.Runs
open DkgSubstrate.SampleRuntime

variable {L : Limits} {AccountId World : Type}

def broadcastOf (L : Limits) : NetworkMsgPayload → Option Broadcast
  | .publicKeyBroadcast msg => some (PublicKeyMessage.broadcast msg)
  | .misbehaviourBroadcast msg =>
      if msg.misbehaviourType = .keygen then some (MisbehaviourMessage.broadcast L msg) else none
  | .keygen _ | .offline _ | .vote _ => none

def SignedBy (crypto : Crypto) (b : Broadcast) (x : Public) : Prop :=
  recoversTo crypto b.data b.signature (xCoordinate x) = true

def IsMember (active queued : AuthoritySet L) (sessionId : ℕ) (x : Public) : Prop :=
  sessionId = active.id ∧ x ∈ active.authorities.toList ∨
    sessionId = queued.id ∧ x ∈ queued.authorities.toList

def Sound (cfg : Config L AccountId World) (w : Worker L AccountId World)
    (active queued : AuthoritySet L) (b : Broadcast) : Prop :=
  ∀ signer, w.authenticate cfg active queued b = .ok signer →
    (b.sessionId = active.id → signer ∈ active.authorities.toList) ∧
      (b.sessionId = queued.id → signer ∈ queued.authorities.toList)

def Complete (cfg : Config L AccountId World) (w : Worker L AccountId World)
    (active queued : AuthoritySet L) (b : Broadcast) : Prop :=
  ∀ x, IsMember active queued b.sessionId x → SignedBy cfg.chain.crypto b x →
    ∃ signer, w.authenticate cfg active queued b = .ok signer

def RightSet (cfg : Config L AccountId World) (n : Node L AccountId World) : Prop :=
  ∀ s ∈ n.worker.latest, ∀ sets ∈ (headerOf s).validatorSet,
    ∀ payload, ∀ b ∈ broadcastOf L payload,
      Sound cfg n.worker sets.1 sets.2 b ∧ Complete cfg n.worker sets.1 sets.2 b

def SameSigner (crypto : Crypto) (used right : AuthoritySet L) (b : Broadcast) : Prop :=
  (∀ signer, used.authorities.toList.find? (fun x =>
      recoversTo crypto b.data b.signature (xCoordinate x)) = some signer →
    signer ∈ right.authorities.toList) ∧
  ((∃ x ∈ right.authorities.toList, SignedBy crypto b x) →
    ∃ x ∈ used.authorities.toList, SignedBy crypto b x)

/-- The latest keygen of the node was for the active set, and not for the queued one, unless
both sets recognise the same signers. -/
def KeygenForActive (cfg : Config L AccountId World) (n : Node L AccountId World) : Prop :=
  ∀ s ∈ n.worker.latest, ∀ sets ∈ (headerOf s).validatorSet,
    ∀ payload, ∀ b ∈ broadcastOf L payload,
      (b.sessionId = sets.1.id → n.worker.isMainRound sets.1.id = true ∨
        SameSigner cfg.chain.crypto sets.2 sets.1 b) ∧
      (b.sessionId = sets.2.id → n.worker.isMainRound sets.2.id = false ∨
        SameSigner cfg.chain.crypto sets.1 sets.2 b)

section Origins

variable {cfg : Config L AccountId World} {w : Worker L AccountId World}
variable {active queued : AuthoritySet L} {b : Broadcast} {signer : Public}

def usedSet (w : Worker L AccountId World) (active queued : AuthoritySet L) (b : Broadcast) :
    AuthoritySet L :=
  if w.isMainRound b.sessionId then active else queued

theorem authenticate_eq_ok :
    w.authenticate cfg active queued b = .ok signer ↔
      (usedSet w active queued b).authorities.toList.find? (fun x =>
        recoversTo cfg.chain.crypto b.data b.signature (xCoordinate x)) = some signer := by
  rw [Worker.authenticate, authenticateMsgOrigin_eq_ok, usedSet]
  cases w.isMainRound b.sessionId with
  | false => rfl
  | true => rfl

theorem exists_authenticate_iff :
    (∃ signer, w.authenticate cfg active queued b = .ok signer) ↔
      ∃ x ∈ (usedSet w active queued b).authorities.toList,
        SignedBy cfg.chain.crypto b x := by
  simp only [authenticate_eq_ok, ← Option.isSome_iff_exists, List.find?_isSome, SignedBy]

theorem sameSigner_self (crypto : Crypto) (set : AuthoritySet L) (b : Broadcast) :
    SameSigner crypto set set b :=
  ⟨fun _ => List.mem_of_find?_eq_some, id⟩

theorem sound_and_complete_iff :
    Sound cfg w active queued b ∧ Complete cfg w active queued b ↔
      (b.sessionId = active.id →
        SameSigner cfg.chain.crypto (usedSet w active queued b) active b) ∧
      (b.sessionId = queued.id →
        SameSigner cfg.chain.crypto (usedSet w active queued b) queued b) := by
  rw [Sound, Complete]
  simp only [exists_authenticate_iff]
  simp only [authenticate_eq_ok, SameSigner]
  constructor
  · rintro ⟨hsound, hcomplete⟩
    refine ⟨fun hid => ⟨fun signer h => (hsound signer h).1 hid, ?_⟩,
      fun hid => ⟨fun signer h => (hsound signer h).2 hid, ?_⟩⟩
    · rintro ⟨x, hx, hsigned⟩
      exact hcomplete x (Or.inl ⟨hid, hx⟩) hsigned
    · rintro ⟨x, hx, hsigned⟩
      exact hcomplete x (Or.inr ⟨hid, hx⟩) hsigned
  · rintro ⟨hactive, hqueued⟩
    refine ⟨fun signer h => ⟨fun hid => (hactive hid).1 signer h,
      fun hid => (hqueued hid).1 signer h⟩, ?_⟩
    rintro x (⟨hid, hx⟩ | ⟨hid, hx⟩) hsigned
    · exact (hactive hid).2 ⟨x, hx, hsigned⟩
    · exact (hqueued hid).2 ⟨x, hx, hsigned⟩

theorem rightSet_iff (cfg : Config L AccountId World) (n : Node L AccountId World) :
    RightSet cfg n ↔ KeygenForActive cfg n := by
  refine forall₂_congr fun s _ => forall₂_congr fun sets _ => forall₂_congr fun payload b =>
    imp_congr_right fun _ => ?_
  rw [sound_and_complete_iff]
  refine and_congr (imp_congr_right fun hid => ?_) (imp_congr_right fun hid => ?_)
  · rw [usedSet, hid]
    cases n.worker.isMainRound sets.1.id with
    | true => exact iff_of_true (sameSigner_self _ _ b) (Or.inl rfl)
    | false => exact (or_iff_right Bool.false_ne_true).symm
  · rw [usedSet, hid]
    cases n.worker.isMainRound sets.2.id with
    | true => exact (or_iff_right Bool.true_eq_false.mp).symm
    | false => exact iff_of_true (sameSigner_self _ _ b) (Or.inl rfl)

end Origins

variable [DecidableEq AccountId]

/-- In every run the broadcasts are checked against the set of their session, exactly if at all
times the latest keygen was for the active set or the sets recognise the same signers. -/
theorem rightSet_run_iff (cfg : Config L AccountId World) (n : Node L AccountId World)
    (es : List (GossipMessages.Event L AccountId World)) :
    Always (GossipMessages.step cfg) (RightSet cfg) n es ↔
      Always (GossipMessages.step cfg) (KeygenForActive cfg) n es := by
  refine always_congr fun pre _ _ => ?_
  exact rightSet_iff cfg (run (GossipMessages.step cfg) n pre)

theorem authenticate_recorded_ne_ok {cfg : Config L AccountId World}
    {n : Node L AccountId World} {start : Start} {active queued : AuthoritySet L}
    {b : Broadcast} {x : Public}
    (hhandler : n.worker.keygenManager.handler = .recording start)
    (hsession : b.sessionId = start.sessionId) (hsigned : SignedBy cfg.chain.crypto b x)
    (houtside : ∀ y ∈ active.authorities.toList, xCoordinate y ≠ xCoordinate x)
    (signer : Public) :
    (GossipMessages.step cfg n .advance).worker.authenticate cfg active queued b ≠
      .ok signer := by
  intro hok
  obtain ⟨y, hy, hother⟩ := exists_authenticate_iff.mp ⟨signer, hok⟩
  have hmain : (GossipMessages.step cfg n .advance).worker.isMainRound b.sessionId = true := by
    simp [GossipMessages.step, KeygenManager.State.advance, hhandler, Worker.isMainRound,
      hsession]
  rw [usedSet, if_pos hmain] at hy
  exact houtside y hy ((recoversTo_iff_of_recoversTo hsigned).mp hother)

def sampleRotation : List (GossipMessages.Event runtimeLimits ℕ Unit) :=
  [.chain (.initializeBlock 1), .chain (.submitPublicKey .none (sampleSubmission 7 2)),
    .chain (.submitNextPublicKey .none (sampleSubmission 9 1)), .chain (.initializeBlock 2),
    .chain (.signedProposal (sampleSigned (sampleRefresh 9 1 2) 7)),
    .chain (.newSession (sampleValidators 2) (sampleValidators 3)),
    .chain (.initializeBlock 22), .finality false] ++ List.replicate 9 .advance

def sampleRotated : Node runtimeLimits ℕ Unit :=
  run (GossipMessages.step sampleGadget) ⟨sampleGenesis 2 1 2, Worker.new (some sampleStorage)⟩
    sampleRotation

theorem queued_authority_rejected : ¬RightSet sampleGadget sampleRotated := by
  intro h
  have hqueued : sampleRotated.worker.latest.map (fun s => (announced s).2) =
      some ⟨(BoundedVec.tryFrom [samplePublic 1, samplePublic 2, samplePublic 3]).getD default,
        2⟩ := by
    decide +kernel
  have hrejected : sampleRotated.worker.latest.map (fun s =>
      (sampleRotated.worker.authenticate sampleGadget (announced s).1 (announced s).2
        (PublicKeyMessage.broadcast (sampleKeyBroadcast 2 11 3))).toOption) = some none := by
    decide +kernel
  obtain ⟨s, hlatest, hset⟩ := Option.map_eq_some_iff.mp hqueued
  rw [hlatest, Option.map_some, Option.some_inj] at hrejected
  have hmember : IsMember (announced s).1 (announced s).2 2 (samplePublic 3) := by
    rw [hset]
    exact Or.inr ⟨rfl, by decide +kernel⟩
  obtain ⟨signer, hok⟩ := (h s hlatest (announced s) (validatorSet_headerOf s)
    (.publicKeyBroadcast (sampleKeyBroadcast 2 11 3)) _ rfl).2 (samplePublic 3) hmember
      (recoversTo_sampleSignature 3 _)
  rw [hok] at hrejected
  cases hrejected

end DkgSubstrate.BroadcastOrigins
