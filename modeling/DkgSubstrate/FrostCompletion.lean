import DkgSubstrate.FrostSigning

/-!
When the signing protocol comes to its end.  It is the meeting of its parties in two rounds, of
which the nonces are the first and the shares the second one.
-/

namespace DkgSubstrate.FrostCompletion

open DkgSubstrate.FrostSigning
open DkgSubstrate.IncomingMessages
open DkgSubstrate.IndexedMap
open DkgSubstrate.Primitives
open DkgSubstrate.Runs
open DkgSubstrate.TwoRounds (Ready Done Sound sent heard SameAt)
open DkgSubstrate.Words

variable {Nonce Share : Type} {n : ℕ}
variable (cfg : Config Nonce Share) (signers : Fin n → Signer Nonce)

abbrev Rounds (n : ℕ) := TwoRounds.State (Fin n)

abbrev partyId (i : Fin n) : ℕ := (signers i).partyId

/-- The signed message carries the message of the party. -/
def Carries (i : Fin n) (signed : SignedDKGMessage) (msg : FrostMessage Nonce Share) : Prop :=
  sendMessage cfg (signers i).authorityId msg = .ok signed

/-- The stage of a party for the round it is in. -/
inductive StageMatches (a : Rounds n) (j : Fin n) : Stage Nonce Share → Prop
  | idle (hidle : j ∉ a.started) : StageMatches a j .idle
  | nonces {partyKeyIds : StorageMap ℕ (List ℕ)} {partyNonces : StorageMap ℕ Nonce}
      (hstarted : j ∈ a.started) (hwaits : ¬Ready a j)
      (hkeyIds : Represents (partyId signers) (fun i => (signers i).keyIds) partyKeyIds
        (heard a j))
      (hnonces : Represents (partyId signers) (fun i => (signers i).nonce) partyNonces
        (heard a j)) :
      StageMatches a j (.nonces partyKeyIds partyNonces)
  | shares {signatureShares : StorageMap ℕ Share} (hstarted : j ∈ a.started)
      (hready : Ready a j) (hwaits : ¬Done a j)
      (hshares : Represents (partyId signers) (agreedShare cfg signers) signatureShares
        (insert j (a.kept j))) :
      StageMatches a j (.shares (agreed signers) signatureShares)
  | done (hdone : Done a j) :
      StageMatches a j (.done (agreed signers) ((order signers).map (agreedShare cfg signers)))

/-- The party has the hashes of exactly the messages that have reached it. -/
def ReceivedMatches (a : Rounds n) (j : Fin n) (receivedMessages : List (FixedBytes 32)) : Prop :=
  ∀ i, i ≠ j → ∀ k msg, (messages cfg signers i)[k]? = some msg →
    ((∃ hash ∈ receivedMessages, digest cfg msg = some hash) ↔ k < a.taken i j)

structure PartyMatches (a : Rounds n) (j : Fin n) (party : Local Nonce Share) : Prop where
  stage : StageMatches cfg signers a j party.stage
  received : ReceivedMatches cfg signers a j party.receivedMessages

/-- On its way is what has been sent and not been taken. -/
structure Matches (s : State n Nonce Share) (a : Rounds n) : Prop where
  sound : Sound a
  party : ∀ j, PartyMatches cfg signers a j (s.party j)
  channel : ∀ i j, i ≠ j → List.Forall₂ (Carries cfg signers i) (s.channel i j)
    (((messages cfg signers i).take (sent a i)).drop (a.taken i j))
  own : ∀ i, s.channel i i = []

variable {cfg signers} {a a' : Rounds n} {i j : Fin n}

theorem PartyMatches.of_sameAt {party : Local Nonce Share} (hsame : SameAt j a a')
    (h : PartyMatches cfg signers a j party) : PartyMatches cfg signers a' j party := by
  obtain ⟨stage, receivedMessages⟩ := party
  refine ⟨?_, ?_⟩
  · cases h.stage with
    | idle hidle => exact .idle fun hstarted => hidle (hsame.started.mp hstarted)
    | nonces hstarted hwaits hkeyIds hnonces =>
        refine .nonces (hsame.started.mpr hstarted) (hsame.ready.not.mpr hwaits) ?_ ?_
        · rw [hsame.heard]
          exact hkeyIds
        · rw [hsame.heard]
          exact hnonces
    | shares hstarted hready hwaits hshares =>
        refine .shares (hsame.started.mpr hstarted) (hsame.ready.mpr hready)
          (hsame.done.not.mpr hwaits) ?_
        rw [hsame.kept]
        exact hshares
    | done hdone => exact .done (hsame.done.mpr hdone)
  · intro i hne k msg hmsg
    rw [h.received i hne k msg hmsg, hsame.taken]

theorem exists_carries (ht : Transparent cfg signers) {msg : FrostMessage Nonce Share}
    (hmem : msg ∈ messages cfg signers i) : ∃ signed, Carries cfg signers i signed msg := by
  obtain ⟨bytes, hbytes, -⟩ := ht.carried i msg hmem
  exact ⟨_, by rw [Carries, sendMessage, hbytes]⟩

theorem nextMessage_of_carries (ht : Transparent cfg signers) {signed : SignedDKGMessage}
    {msg : FrostMessage Nonce Share} (hmem : msg ∈ messages cfg signers i)
    (hcarries : Carries cfg signers i signed msg) (receivedMessages : List (FixedBytes 32)) :
    messageOf cfg signed = some msg ∧ ∃ hash, digest cfg msg = some hash ∧
      nextMessage cfg receivedMessages signed =
        if receivedMessages.contains hash then (receivedMessages, none)
        else (hash :: receivedMessages, some (.ok msg)) := by
  obtain ⟨bytes, hbytes, hread, hverified⟩ := ht.carried i msg hmem
  rw [Carries, sendMessage, hbytes] at hcarries
  obtain rfl := Except.ok.inj hcarries
  refine ⟨?_, cfg.sha2256 bytes, ?_, ?_⟩
  · rw [messageOf, hverified]
    simp only [networkMessage, payload, hread]
    rfl
  · rw [digest, hbytes]
    rfl
  · rw [nextMessage, hverified]
    simp only [networkMessage, payload, hread]
    rfl

theorem message_cases {k : ℕ} {msg : FrostMessage Nonce Share}
    (h : (messages cfg signers i)[k]? = some msg) :
    (k = 0 ∧ msg = .sign (signers i).partyId (signers i).keyIds (signers i).nonce) ∨
      (k = 1 ∧ msg = .signFinal (signers i).partyId (agreedShare cfg signers i)) := by
  rcases k with _ | _ | k
  · exact .inl ⟨rfl, (Option.some.inj h).symm⟩
  · exact .inr ⟨rfl, (Option.some.inj h).symm⟩
  · cases h

theorem position_unique (hids : Function.Injective (partyId signers)) {i' : Fin n} {k k' : ℕ}
    {msg : FrostMessage Nonce Share} (h : (messages cfg signers i)[k]? = some msg)
    (h' : (messages cfg signers i')[k']? = some msg) : i = i' ∧ k = k' := by
  rcases message_cases h with ⟨rfl, rfl⟩ | ⟨rfl, rfl⟩
  · rcases message_cases h' with ⟨rfl, heq⟩ | ⟨rfl, heq⟩
    · exact ⟨hids (FrostMessage.sign.inj heq).1, rfl⟩
    · cases heq
  · rcases message_cases h' with ⟨rfl, heq⟩ | ⟨rfl, heq⟩
    · cases heq
    · exact ⟨hids (FrostMessage.signFinal.inj heq).1, rfl⟩

/-- The next message of a channel is the first one that has not been taken. -/
theorem channel_head {s : State n Nonce Share} (hm : Matches cfg signers s a) (hne : i ≠ j)
    {signed : SignedDKGMessage} {rest : List SignedDKGMessage}
    (hchannel : s.channel i j = signed :: rest) :
    a.taken i j < sent a i ∧ ∃ msg, (messages cfg signers i)[a.taken i j]? = some msg ∧
      Carries cfg signers i signed msg ∧
      List.Forall₂ (Carries cfg signers i) rest
        (((messages cfg signers i).take (sent a i)).drop (a.taken i j + 1)) := by
  have hforall := hm.channel i j hne
  rw [hchannel] at hforall
  cases hdrop : ((messages cfg signers i).take (sent a i)).drop (a.taken i j) with
  | nil =>
      rw [hdrop] at hforall
      cases hforall
  | cons msg later =>
      rw [hdrop] at hforall
      obtain ⟨hcarries, hrest⟩ := List.forall₂_cons.mp hforall
      have hget : ((messages cfg signers i).take (sent a i))[a.taken i j]? = some msg := by
        rw [← List.head?_drop, hdrop, List.head?_cons]
      have hlater : ((messages cfg signers i).take (sent a i)).drop (a.taken i j + 1) =
          later := by
        rw [← List.drop_drop, hdrop]
        rfl
      rw [List.getElem?_take] at hget
      split at hget
      · rename_i hlt
        exact ⟨hlt, msg, hget, hcarries, hlater ▸ hrest⟩
      · cases hget

theorem ReceivedMatches.deliver (hids : Function.Injective (partyId signers))
    (ht : Transparent cfg signers) {receivedMessages : List (FixedBytes 32)}
    (h : ReceivedMatches cfg signers a j receivedMessages) {msg : FrostMessage Nonce Share}
    (hmsg : (messages cfg signers i)[a.taken i j]? = some msg) {hash : FixedBytes 32}
    (hhash : digest cfg msg = some hash) :
    ReceivedMatches cfg signers (TwoRounds.step a (.deliver i j)) j
      (hash :: receivedMessages) := by
  intro i' hne k msg' hmsg'
  have hnew : digest cfg msg' = some hash ↔ i' = i ∧ k = a.taken i j := by
    constructor
    · intro hhash'
      have heq := ht.distinct i' i msg' (List.mem_of_getElem? hmsg') msg
        (List.mem_of_getElem? hmsg) (hhash'.trans hhash.symm)
      subst heq
      exact position_unique hids hmsg' hmsg
    · rintro ⟨rfl, rfl⟩
      rw [hmsg] at hmsg'
      rw [← Option.some.inj hmsg', hhash]
  rw [List.exists_mem_cons_iff, hnew, h i' hne k msg' hmsg', TwoRounds.taken_deliver]
  by_cases hi : i' = i
  · subst hi
    rw [if_pos ⟨rfl, rfl⟩]
    simp only [true_and]
    omega
  · rw [if_neg fun h => hi h.1]
    simp [hi]

section Loops

variable (hids : Function.Injective (partyId signers)) (hthreshold : cfg.threshold = n)
include hids hthreshold

theorem length_lt_threshold_iff {V : Type} {val : Fin n → V} {m : StorageMap ℕ V}
    {A : Finset (Fin n)} (h : Represents (partyId signers) val m A) :
    m.entries.length < cfg.threshold ↔ A ≠ Finset.univ := by
  have hcard := Finset.card_lt_iff_ne_univ A
  rw [Fintype.card_fin] at hcard
  rw [h.length hids, hthreshold, hcard]

omit hthreshold in
theorem iter_of_represents {V : Type} {val : Fin n → V} {m : StorageMap ℕ V}
    (h : Represents (partyId signers) val m Finset.univ) :
    m.iter id = (order signers).map fun i => (partyId signers i, val i) :=
  h.iter (fun i => iff_of_true (mem_byKey _ i) (Finset.mem_univ i)) (pairwise_byKey hids)

theorem stageMatches_shareLoop {signatureShares : StorageMap ℕ Share} (hstarted : j ∈ a.started)
    (hready : Ready a j)
    (hshares : Represents (partyId signers) (agreedShare cfg signers) signatureShares
      (insert j (a.kept j))) :
    StageMatches cfg signers a j (shareLoop cfg (agreed signers) signatureShares) := by
  have hdone : Done a j ↔ insert j (a.kept j) = Finset.univ := by
    rw [Done, and_iff_right hstarted, and_iff_right hready, Finset.eq_univ_iff_forall]
    simp only [Finset.mem_insert, or_iff_not_imp_left, ne_eq]
  rw [shareLoop]
  split
  · rename_i hfew
    have hmissing := (length_lt_threshold_iff hids hthreshold hshares).mp hfew
    exact .shares hstarted hready (hdone.not.mpr hmissing) hshares
  · rename_i henough
    have hall := not_not.mp ((length_lt_threshold_iff hids hthreshold hshares).not.mp henough)
    rw [hall] at hshares
    rw [iter_of_represents hids hshares, List.map_map]
    exact .done (hdone.mpr hall)

theorem matches_nonceLoop (ht : Transparent cfg signers)
    {partyKeyIds : StorageMap ℕ (List ℕ)} {partyNonces : StorageMap ℕ Nonce}
    (hstarted : j ∈ a.started) (hkept : a.kept j = ∅)
    (hkeyIds : Represents (partyId signers) (fun i => (signers i).keyIds) partyKeyIds
      (heard a j))
    (hnonces : Represents (partyId signers) (fun i => (signers i).nonce) partyNonces
      (heard a j)) :
    StageMatches cfg signers a j (nonceLoop cfg (signers j) partyKeyIds partyNonces).1 ∧
      List.Forall₂ (Carries cfg signers j) (nonceLoop cfg (signers j) partyKeyIds partyNonces).2
        (((messages cfg signers j).take (sent a j)).drop 1) := by
  have hlength := length_lt_threshold_iff hids hthreshold hnonces
  rw [nonceLoop]
  split
  · rename_i hfew
    have hwaits : ¬Ready a j := TwoRounds.ready_iff_heard.not.mpr (hlength.mp hfew)
    refine ⟨.nonces hstarted hwaits hkeyIds hnonces, ?_⟩
    rw [TwoRounds.sent_of_waits hstarted hwaits]
    exact .nil
  · rename_i henough
    have hall := not_not.mp (hlength.not.mp henough)
    have hready : Ready a j := TwoRounds.ready_iff_heard.mpr hall
    rw [hall] at hkeyIds hnonces
    have hpartyIds : (partyKeyIds.iter id).map Prod.fst = (agreed signers).partyIds := by
      rw [iter_of_represents hids hkeyIds, List.map_map]
      rfl
    have hpartyKeyIds : (partyKeyIds.iter id).flatMap Prod.snd =
        (agreed signers).partyKeyIds := by
      rw [iter_of_represents hids hkeyIds, List.flatMap_map]
      rfl
    have hpartyNonces : (partyNonces.iter id).map Prod.snd = (agreed signers).partyNonces := by
      rw [iter_of_represents hids hnonces, List.map_map]
      rfl
    obtain ⟨signed, hsigned⟩ : ∃ signed, Carries cfg signers j signed
        (.signFinal (signers j).partyId (agreedShare cfg signers j)) :=
      exists_carries ht (List.mem_cons_of_mem _ List.mem_cons_self)
    rw [Carries, agreedShare] at hsigned
    simp only [hpartyIds, hpartyKeyIds, hpartyNonces, hsigned]
    refine ⟨stageMatches_shareLoop hids hthreshold hstarted hready ?_, ?_⟩
    · rw [hkept]
      exact represents_empty.insert hids j
    · rw [TwoRounds.sent_of_ready hstarted hready]
      exact .cons hsigned .nil

theorem matches_runSigning (ht : Transparent cfg signers) (hsound : Sound a)
    (hidle : j ∉ a.started) :
    StageMatches cfg signers (TwoRounds.step a (.start j)) j (runSigning cfg (signers j)).1 ∧
      List.Forall₂ (Carries cfg signers j) (runSigning cfg (signers j)).2
        ((messages cfg signers j).take (sent (TwoRounds.step a (.start j)) j)) := by
  have hstarted : j ∈ (TwoRounds.step a (.start j)).started := Finset.mem_insert_self j _
  have hheard : heard (TwoRounds.step a (.start j)) j = insert j ∅ := by
    ext i
    rw [TwoRounds.mem_heard]
    change i = j ∨ 0 < a.taken i j ↔ _
    rw [hsound.taken_idle i j hidle]
    simp
  have hkept : a.kept j = ∅ := by
    refine Finset.eq_empty_of_forall_notMem fun i hmem => ?_
    have htwo := (hsound.kept i j hmem).1
    rw [hsound.taken_idle i j hidle] at htwo
    cases htwo
  obtain ⟨signed, hsigned⟩ : ∃ signed, Carries cfg signers j signed
      (.sign (signers j).partyId (signers j).keyIds (signers j).nonce) :=
    exists_carries ht List.mem_cons_self
  obtain ⟨hstage, hout⟩ := matches_nonceLoop hids hthreshold ht hstarted hkept
    (hheard ▸ represents_empty.insert hids j) (hheard ▸ represents_empty.insert hids j)
  have hfirst : (messages cfg signers j).take (sent (TwoRounds.step a (.start j)) j) =
      .sign (signers j).partyId (signers j).keyIds (signers j).nonce ::
        ((messages cfg signers j).take (sent (TwoRounds.step a (.start j)) j)).drop 1 := by
    rw [sent, if_pos hstarted]
    split <;> rfl
  rw [runSigning, show sendMessage cfg (signers j).authorityId _ = _ from hsigned, hfirst]
  exact ⟨hstage, .cons hsigned hout⟩

theorem matches_onMessage_nonces (ht : Transparent cfg signers) (hsound : Sound a)
    (hne : i ≠ j) (hstarted : j ∈ a.started) (hwaits : ¬Ready a j)
    {partyKeyIds : StorageMap ℕ (List ℕ)} {partyNonces : StorageMap ℕ Nonce}
    (hkeyIds : Represents (partyId signers) (fun i => (signers i).keyIds) partyKeyIds
      (heard a j))
    (hnonces : Represents (partyId signers) (fun i => (signers i).nonce) partyNonces
      (heard a j))
    {msg : FrostMessage Nonce Share}
    (hmsg : (messages cfg signers i)[a.taken i j]? = some msg) :
    let out := onMessage cfg (signers j) (.nonces partyKeyIds partyNonces) (.ok msg)
    let a' := TwoRounds.step a (.deliver i j)
    StageMatches cfg signers a' j out.1 ∧ List.Forall₂ (Carries cfg signers j) out.2
      (((messages cfg signers j).take (sent a' j)).drop (sent a j)) := by
  have hheard := TwoRounds.heard_deliver (s := a) i j
  have hother : (signers j).partyId ≠ (signers i).partyId := fun heq => hne (hids heq).symm
  rw [TwoRounds.sent_of_waits hstarted hwaits]
  rcases message_cases hmsg with ⟨hzero, rfl⟩ | ⟨hone, rfl⟩
  · have hkept : (TwoRounds.step a (.deliver i j)).kept j = ∅ := by
      refine Finset.eq_empty_of_forall_notMem fun b hmem => ?_
      rcases TwoRounds.mem_kept_deliver.mp hmem with hold | ⟨⟨hone, -⟩, -⟩
      · exact hwaits (hsound.kept b j hold).2
      · omega
    simp only [onMessage, if_pos hother]
    exact matches_nonceLoop hids hthreshold ht hstarted hkept
      (hheard ▸ hkeyIds.insert hids i) (hheard ▸ hnonces.insert hids i)
  · have hold : heard (TwoRounds.step a (.deliver i j)) j = heard a j := by
      rw [hheard]
      exact Finset.insert_eq_of_mem (TwoRounds.mem_heard.mpr (.inr (by omega)))
    have hstarted' : j ∈ (TwoRounds.step a (.deliver i j)).started := hstarted
    have hwaits' : ¬Ready (TwoRounds.step a (.deliver i j)) j := by
      rw [TwoRounds.ready_iff_heard, hold, ← TwoRounds.ready_iff_heard]
      exact hwaits
    refine ⟨.nonces hstarted' hwaits' (hold.symm ▸ hkeyIds) (hold.symm ▸ hnonces), ?_⟩
    rw [TwoRounds.sent_of_waits hstarted' hwaits']
    exact .nil

theorem matches_onMessage_shares (hne : i ≠ j) (hstarted : j ∈ a.started) (hready : Ready a j)
    {signatureShares : StorageMap ℕ Share}
    (hshares : Represents (partyId signers) (agreedShare cfg signers) signatureShares
      (insert j (a.kept j)))
    {msg : FrostMessage Nonce Share}
    (hmsg : (messages cfg signers i)[a.taken i j]? = some msg) :
    let out := onMessage cfg (signers j) (.shares (agreed signers) signatureShares) (.ok msg)
    let a' := TwoRounds.step a (.deliver i j)
    StageMatches cfg signers a' j out.1 ∧ List.Forall₂ (Carries cfg signers j) out.2
      (((messages cfg signers j).take (sent a' j)).drop (sent a j)) := by
  have hstarted' : j ∈ (TwoRounds.step a (.deliver i j)).started := hstarted
  have hready' : Ready (TwoRounds.step a (.deliver i j)) j := hready.step _
  have hother : (signers j).partyId ≠ (signers i).partyId := fun heq => hne (hids heq).symm
  have hpos := hready i hne
  rcases message_cases hmsg with ⟨hzero, rfl⟩ | ⟨hone, rfl⟩
  · omega
  · have hkept : (TwoRounds.step a (.deliver i j)).kept j = insert i (a.kept j) := by
      ext b
      rw [TwoRounds.mem_kept_deliver, Finset.mem_insert]
      simp [hone, hready, or_comm]
    simp only [onMessage, if_pos hother]
    refine ⟨stageMatches_shareLoop hids hthreshold hstarted' hready' ?_, ?_⟩
    · rw [hkept, Finset.insert_comm]
      exact hshares.insert hids i
    · rw [TwoRounds.sent_of_ready hstarted' hready', TwoRounds.sent_of_ready hstarted hready]
      exact .nil

theorem matches_receive (ht : Transparent cfg signers) (hsound : Sound a) (hne : i ≠ j)
    (hstarted : j ∈ a.started) (hlt : a.taken i j < sent a i)
    {party : Local Nonce Share} (hparty : PartyMatches cfg signers a j party)
    {signed : SignedDKGMessage} {msg : FrostMessage Nonce Share}
    (hmsg : (messages cfg signers i)[a.taken i j]? = some msg)
    (hcarries : Carries cfg signers i signed msg) :
    let out := receive cfg (signers j) party signed
    let a' := TwoRounds.step a (.deliver i j)
    PartyMatches cfg signers a' j out.1 ∧ List.Forall₂ (Carries cfg signers j) out.2
      (((messages cfg signers j).take (sent a' j)).drop (sent a j)) := by
  obtain ⟨stage, receivedMessages⟩ := party
  obtain ⟨-, hash, hhash, hnext⟩ := nextMessage_of_carries ht (List.mem_of_getElem? hmsg) hcarries
    receivedMessages
  have hunknown : ¬receivedMessages.contains hash = true := by
    intro hknown
    have htaken := (hparty.received i hne _ msg hmsg).mp
      ⟨hash, List.contains_iff_mem.mp hknown, hhash⟩
    exact lt_irrefl _ htaken
  rw [if_neg hunknown] at hnext
  have hreceived := hparty.received.deliver hids ht hmsg hhash
  simp only [receive, hnext]
  have hle := TwoRounds.sent_le a i
  suffices hstage : StageMatches cfg signers (TwoRounds.step a (.deliver i j)) j
      (onMessage cfg (signers j) stage (.ok msg)).1 ∧ List.Forall₂ (Carries cfg signers j)
        (onMessage cfg (signers j) stage (.ok msg)).2 (((messages cfg signers j).take
          (sent (TwoRounds.step a (.deliver i j)) j)).drop (sent a j)) from
    ⟨⟨hstage.1, hreceived⟩, hstage.2⟩
  cases hparty.stage with
  | idle hidle => exact absurd hstarted hidle
  | nonces _ hwaits hkeyIds hnonces =>
      exact matches_onMessage_nonces hids hthreshold ht hsound hne hstarted hwaits hkeyIds
        hnonces hmsg
  | shares _ hready _ hshares =>
      exact matches_onMessage_shares hids hthreshold hne hstarted hready hshares hmsg
  | done hdone =>
      have htwo := (hsound.kept i j (hdone.2.2 i hne)).1
      omega

end Loops

theorem forall₂_append_of_take {α β : Type} {R : α → β → Prop} {queue out : List α} {l : List β}
    {taken before after : ℕ} (hqueue : List.Forall₂ R queue ((l.take before).drop taken))
    (hout : List.Forall₂ R out ((l.take after).drop before)) (htaken : taken ≤ before)
    (hle : before ≤ after) (hlength : before ≤ l.length) :
    List.Forall₂ R (queue ++ out) ((l.take after).drop taken) := by
  have hsplit : l.take after = l.take before ++ (l.take after).drop before := by
    have hprefix := List.take_append_drop before (l.take after)
    rw [List.take_take, min_eq_left hle] at hprefix
    exact hprefix.symm
  have hdrop : (l.take after).drop taken =
      (l.take before).drop taken ++ (l.take after).drop before := by
    conv_lhs => rw [hsplit]
    refine List.drop_append_of_le_length ?_
    rw [List.length_take, min_eq_left hlength]
    exact htaken
  rw [hdrop]
  exact List.rel_append hqueue hout

theorem matches_init : Matches cfg signers (State.init : State n Nonce Share)
    TwoRounds.State.init where
  sound := TwoRounds.sound_init
  party j := by
    refine ⟨.idle (Finset.notMem_empty j), ?_⟩
    intro i hne k msg hmsg
    refine iff_of_false ?_ (Nat.not_lt_zero k)
    rintro ⟨hash, hmem, -⟩
    cases hmem
  channel i j hne := .nil
  own i := rfl

section System

variable {s : State n Nonce Share}

theorem isIdle_iff (hm : Matches cfg signers s a) : isIdle s j = true ↔ j ∉ a.started := by
  have hstage := (hm.party j).stage
  rw [isIdle]
  generalize (s.party j).stage = stage at hstage
  cases hstage with
  | idle hidle => exact iff_of_true rfl hidle
  | nonces hstarted => exact iff_of_false Bool.false_ne_true (not_not.mpr hstarted)
  | shares hstarted => exact iff_of_false Bool.false_ne_true (not_not.mpr hstarted)
  | done hdone => exact iff_of_false Bool.false_ne_true (not_not.mpr hdone.1)

theorem enabled_iff (hm : Matches cfg signers s a) (e : FrostSigning.Event n) :
    Enabled s e ↔ TwoRounds.Enabled a e := by
  cases e with
  | start i => exact isIdle_iff hm
  | deliver i j =>
      rw [Enabled, TwoRounds.Enabled, ← Bool.not_eq_true (isIdle s j), isIdle_iff hm, not_not]
      by_cases hne : i = j
      · subst hne
        simp [hm.own i]
      · have hlength := (hm.channel i j hne).length_eq
        have hle := TwoRounds.sent_le a i
        have htwo : (messages cfg signers i).length = 2 := rfl
        rw [List.length_drop, List.length_take, htwo, min_eq_left hle] at hlength
        rw [List.isEmpty_eq_false_iff, ← List.length_pos_iff_ne_nil, hlength, Nat.sub_pos_iff_lt]
        simp [hne, and_comm]

theorem nonces_iff (hm : Matches cfg signers s a) (hstarted : j ∈ a.started) :
    (∃ partyKeyIds partyNonces, (s.party j).stage = .nonces partyKeyIds partyNonces) ↔
      ¬Ready a j := by
  have hstage := (hm.party j).stage
  generalize (s.party j).stage = stage at hstage
  cases hstage with
  | idle hidle => exact absurd hstarted hidle
  | nonces _ hwaits => exact iff_of_true ⟨_, _, rfl⟩ hwaits
  | shares _ hready =>
      refine iff_of_false ?_ (not_not.mpr hready)
      rintro ⟨_, _, heq⟩
      cases heq
  | done hdone =>
      refine iff_of_false ?_ (not_not.mpr hdone.2.1)
      rintro ⟨_, _, heq⟩
      cases heq

theorem done_iff (hm : Matches cfg signers s a) :
    (s.party j).stage = .done (agreed signers) ((order signers).map (agreedShare cfg signers)) ↔
      Done a j := by
  have hstage := (hm.party j).stage
  generalize (s.party j).stage = stage at hstage
  cases hstage with
  | idle hidle =>
      refine iff_of_false ?_ fun hdone => hidle hdone.1
      intro heq
      cases heq
  | nonces _ hwaits =>
      refine iff_of_false ?_ fun hdone => hwaits hdone.2.1
      intro heq
      cases heq
  | shares _ _ hwaits =>
      refine iff_of_false ?_ hwaits
      intro heq
      cases heq
  | done hdone => exact iff_of_true rfl hdone

/-- A share is dropped exactly if it is a second message that does not come in time. -/
theorem not_dropsShare_iff (ht : Transparent cfg signers) {e : FrostSigning.Event n}
    (hm : Matches cfg signers s a) (henabled : Enabled s e) :
    ¬DropsShare cfg s e ↔ TwoRounds.InTime a e := by
  cases e with
  | start i => exact iff_of_true id trivial
  | deliver i j =>
      obtain ⟨hne, hstarted, -⟩ := (enabled_iff hm _).mp henabled
      obtain ⟨signed, rest, hchannel⟩ :=
        List.exists_cons_of_ne_nil (List.isEmpty_eq_false_iff.mp henabled.1)
      obtain ⟨-, msg, hmsg, hcarries, -⟩ := channel_head hm hne hchannel
      have hmessage := (nextMessage_of_carries ht (List.mem_of_getElem? hmsg) hcarries []).1
      constructor
      · intro hkeeps hone
        by_contra hwaits
        obtain ⟨partyKeyIds, partyNonces, hstage⟩ := (nonces_iff hm hstarted).mpr hwaits
        rw [hone] at hmsg
        obtain rfl := Option.some.inj hmsg
        exact hkeeps ⟨signed, rest, _, _, partyKeyIds, partyNonces, hchannel, hmessage, hstage⟩
      · rintro hintime ⟨signed', rest', partyId', share, partyKeyIds, partyNonces, hchannel',
          hmessage', hstage⟩
        rw [hchannel] at hchannel'
        obtain ⟨rfl, rfl⟩ := List.cons.inj hchannel'
        obtain rfl := Option.some.inj (hmessage.symm.trans hmessage')
        refine (nonces_iff hm hstarted).mp ⟨_, _, hstage⟩ (hintime ?_)
        rcases message_cases hmsg with ⟨-, heq⟩ | ⟨hone, -⟩
        · cases heq
        · exact hone

variable (hids : Function.Injective (partyId signers)) (hthreshold : cfg.threshold = n)
  (ht : Transparent cfg signers)
include hids hthreshold ht

theorem matches_start (hm : Matches cfg signers s a) (henabled : Enabled s (.start i)) :
    Matches cfg signers (step cfg signers s (.start i)) (TwoRounds.step a (.start i)) := by
  have hidle := (isIdle_iff hm).mp henabled
  obtain ⟨hstage, hout⟩ := matches_runSigning hids hthreshold ht hm.sound hidle
  have hsent : sent a i = 0 := by rw [sent, if_neg hidle]
  have hstep : step cfg signers s (.start i) = broadcast i (runSigning cfg (signers i)).2
      { s with
        party := Function.update s.party i
          ⟨(runSigning cfg (signers i)).1, (s.party i).receivedMessages⟩ } :=
    if_pos henabled
  rw [hstep]
  refine ⟨hm.sound.step ((enabled_iff hm _).mp henabled), ?_, ?_, ?_⟩
  · intro j
    simp only [broadcast]
    by_cases hj : j = i
    · subst hj
      rw [Function.update_self]
      exact ⟨hstage, (hm.party j).received⟩
    · rw [Function.update_of_ne hj]
      exact (hm.party j).of_sameAt (TwoRounds.sameAt_start hj)
  · intro x y hne
    have hold := hm.channel x y hne
    simp only [broadcast]
    by_cases hx : x = i
    · subst hx
      rw [if_pos ⟨rfl, hne.symm⟩]
      refine forall₂_append_of_take hold ?_ (hm.sound.taken_le x y)
        (TwoRounds.sent_le_step _ x) (TwoRounds.sent_le a x)
      rw [hsent]
      exact hout
    · rw [if_neg fun h => hx h.1, (TwoRounds.sameAt_start hx).sent]
      exact hold
  · intro x
    simp only [broadcast]
    rw [if_neg fun h => h.2 h.1]
    exact hm.own x

theorem matches_deliver (hm : Matches cfg signers s a) (henabled : Enabled s (.deliver i j)) :
    Matches cfg signers (step cfg signers s (.deliver i j))
      (TwoRounds.step a (.deliver i j)) := by
  have habstract := (enabled_iff hm _).mp henabled
  obtain ⟨hne, hstarted, hlt⟩ := habstract
  obtain ⟨signed, rest, hchannel⟩ :=
    List.exists_cons_of_ne_nil (List.isEmpty_eq_false_iff.mp henabled.1)
  obtain ⟨-, msg, hmsg, hcarries, hrest⟩ := channel_head hm hne hchannel
  obtain ⟨hparty, hout⟩ := matches_receive hids hthreshold ht hm.sound hne hstarted hlt
    (hm.party j) hmsg hcarries
  have hstep : step cfg signers s (.deliver i j) =
      broadcast j (receive cfg (signers j) (s.party j) signed).2
        { party := Function.update s.party j (receive cfg (signers j) (s.party j) signed).1
          channel := fun a b => if a = i ∧ b = j then rest else s.channel a b } := by
    simp only [step, hchannel, henabled.2]
    rfl
  rw [hstep]
  refine ⟨hm.sound.step ⟨hne, hstarted, hlt⟩, ?_, ?_, ?_⟩
  · intro b
    simp only [broadcast]
    by_cases hb : b = j
    · subst hb
      rw [Function.update_self]
      exact hparty
    · rw [Function.update_of_ne hb]
      exact (hm.party b).of_sameAt (TwoRounds.sameAt_deliver hb)
  · intro x y hxy
    have hold := hm.channel x y hxy
    simp only [broadcast, TwoRounds.taken_deliver]
    by_cases hx : x = j
    · -- The receiver may have sent its share.
      subst hx
      rw [if_pos ⟨rfl, hxy.symm⟩, if_neg fun h => hne h.1.symm, if_neg fun h => hne h.1.symm]
      exact forall₂_append_of_take hold hout (hm.sound.taken_le x y)
        (TwoRounds.sent_le_step _ x) (TwoRounds.sent_le a x)
    · rw [if_neg fun h => hx h.1, (TwoRounds.sameAt_deliver hx).sent]
      split
      · rename_i heq
        obtain ⟨rfl, rfl⟩ := heq
        exact hrest
      · exact hold
  · intro x
    simp only [broadcast]
    rw [if_neg fun h => h.2 h.1, if_neg fun h => hne (h.1.symm.trans h.2)]
    exact hm.own x

theorem matches_step {e : FrostSigning.Event n} (hm : Matches cfg signers s a)
    (henabled : Enabled s e) :
    Matches cfg signers (step cfg signers s e) (TwoRounds.step a e) := by
  cases e with
  | start i => exact matches_start hids hthreshold ht hm henabled
  | deliver i j => exact matches_deliver hids hthreshold ht hm henabled

end System

/-- A schedule ends after a bounded number of events.  At its end all parties have the same
lists exactly if none of them has dropped a share because it was still collecting nonces. -/
theorem signing_completes_iff (cfg : Config Nonce Share) (signers : Fin n → Signer Nonce)
    (es : List (FrostSigning.Event n))
    (hids : Function.Injective fun i => (signers i).partyId) (hthreshold : cfg.threshold = n)
    (ht : Transparent cfg signers)
    (hrun : StepsMeet (step cfg signers) Enabled State.init es) :
    es.length ≤ n + (n * n - n) * 2 ∧
      ((∀ e, ¬Enabled (run (step cfg signers) State.init es) e) →
        (Completed cfg signers (run (step cfg signers) State.init es) ↔
          StepsMeet (step cfg signers) (fun s e => ¬DropsShare cfg s e) State.init es)) := by
  have hstep := fun s a e => matches_step (s := s) (a := a) (e := e) hids hthreshold ht
  have henabled := (stepsMeet_iff_of_related hstep (fun s a e hm _ => enabled_iff hm e)
    matches_init hrun).mp hrun
  have hm := run_related hstep matches_init hrun
  refine ⟨?_, ?_⟩
  · have hlength := TwoRounds.length_le_left henabled
    rw [TwoRounds.left_init, Fintype.card_fin] at hlength
    exact hlength
  · intro hmaximal
    have hend := fun e => (enabled_iff hm e).not.mp (hmaximal e)
    rw [stepsMeet_iff_of_related hstep (fun s a e => not_dropsShare_iff ht) matches_init hrun,
      ← TwoRounds.done_iff_inTime henabled hend]
    exact forall_congr' fun i => done_iff hm

def sampleSerialize : FrostMessage UInt8 UInt8 → Bytes
  | .dkg => [0]
  | .sign partyId keyIds nonce => 1 :: UInt8.ofNat partyId :: nonce :: keyIds.map UInt8.ofNat
  | .signFinal partyId signatureShare => [2, UInt8.ofNat partyId, signatureShare]

def sampleDeserialize : Bytes → Except String (FrostMessage UInt8 UInt8)
  | [0] => .ok .dkg
  | 1 :: partyId :: nonce :: keyIds =>
      .ok (.sign partyId.toNat (keyIds.map UInt8.toNat) nonce)
  | [2, partyId, signatureShare] => .ok (.signFinal partyId.toNat signatureShare)
  | _ => .error "unexpected end of file"

def sampleFrost : Config UInt8 UInt8 where
  serialize msg := .ok (sampleSerialize msg)
  deserialize := sampleDeserialize
  sha2256 bytes := (toFixed 32 ((bytes ++ List.replicate 32 0).take 32)).getD
    (List.Vector.replicate 32 0)
  signMessage msg := ⟨msg, some []⟩
  verifySignatureAgainstAuthorities signed := .ok signed.msg
  sign partyId partyIds _ partyNonces :=
    partyNonces.foldl (fun share nonce => share + nonce) (UInt8.ofNat (partyId + partyIds.length))
  debug _ := "GenericError"
  protoHash := List.Vector.replicate 32 0
  sessionId := 1
  associatedBlockId := 5
  ssid := 0
  threshold := 3

def sampleSigners (i : Fin 3) : Signer UInt8 where
  partyId := 2 - i
  keyIds := [2 - i]
  nonce := UInt8.ofNat (10 + i)
  authorityId := List.Vector.replicate 33 (UInt8.ofNat i)

theorem transparent_sampleFrost : Transparent sampleFrost sampleSigners where
  carried i msg hmem := by
    refine ⟨sampleSerialize msg, rfl, ?_, rfl⟩
    revert i msg
    decide +kernel
  distinct := by decide +kernel

def sampleSchedule : List (FrostSigning.Event 3) :=
  [.start 0, .start 1, .start 2,
    .deliver 0 1, .deliver 0 2, .deliver 1 0, .deliver 1 2, .deliver 2 0, .deliver 2 1,
    .deliver 0 1, .deliver 0 2, .deliver 1 0, .deliver 1 2, .deliver 2 0, .deliver 2 1]

def sampleEarlyShare : List (FrostSigning.Event 3) :=
  [.start 0, .start 1, .start 2,
    .deliver 1 0, .deliver 2 0, .deliver 0 1, .deliver 2 1,
    .deliver 0 2, .deliver 0 2, .deliver 1 2, .deliver 1 2,
    .deliver 1 0, .deliver 2 0, .deliver 0 1, .deliver 2 1]

theorem signing_completes_sampleSchedule :
    Completed sampleFrost sampleSigners
        (run (step sampleFrost sampleSigners) State.init sampleSchedule) ∧
      StepsMeet (step sampleFrost sampleSigners) (fun s e => ¬DropsShare sampleFrost s e)
        State.init sampleSchedule := by
  have hcompleted : Completed sampleFrost sampleSigners
      (run (step sampleFrost sampleSigners) State.init sampleSchedule) := by
    rw [Completed]
    decide +kernel
  have hend : ∀ e, ¬Enabled (run (step sampleFrost sampleSigners) State.init sampleSchedule) e := by
    rintro (i | ⟨i, j⟩)
    · revert i
      decide +kernel
    · revert i j
      decide +kernel
  refine ⟨hcompleted, ?_⟩
  exact ((signing_completes_iff sampleFrost sampleSigners sampleSchedule (by decide) rfl
    transparent_sampleFrost (by decide +kernel)).2 hend).mp hcompleted

/-- The parties whose shares are there, in the second loop. -/
def sharesOf : Stage Nonce Share → Option (List ℕ)
  | .shares _ signatureShares => some signatureShares.keys
  | _ => none

theorem signing_stuck_sampleEarlyShare :
    let s := run (step sampleFrost sampleSigners) State.init sampleEarlyShare
    (Function.Injective fun i => (sampleSigners i).partyId) ∧ sampleFrost.threshold = 3 ∧
      Transparent sampleFrost sampleSigners ∧
      StepsMeet (step sampleFrost sampleSigners) Enabled State.init sampleEarlyShare ∧
      (∀ e, ¬Enabled s e) ∧
      sharesOf (s.party 2).stage = some [1, 0] ∧ ¬Completed sampleFrost sampleSigners s := by
  intro s
  have hwaits : sharesOf (s.party 2).stage = some [1, 0] := by decide +kernel
  refine ⟨by decide, rfl, transparent_sampleFrost, by decide +kernel, ?_, hwaits, ?_⟩
  · rintro (i | ⟨i, j⟩)
    · revert i
      decide +kernel
    · revert i j
      decide +kernel
  · intro hcompleted
    rw [hcompleted 2] at hwaits
    cases hwaits

end DkgSubstrate.FrostCompletion
