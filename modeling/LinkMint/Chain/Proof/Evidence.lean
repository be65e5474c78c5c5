import LinkMint.Chain.Testnet
import LinkMint.Chain.Proof.Change

/-!
# Double signing, and who pays for it

The checker of double-sign evidence verifies that the hashes differ and that the key of the
accused signed both. It does not ask whether they are hashes of blocks; the results here are for
evidence that is.
-/

namespace LinkMint.Chain

open LinkMint.Lib Std

def accusation (env : Env) (tx : Transaction) : Option (Address × DoubleSignEvidence) :=
  match TxKind.ofCode tx.type, env.decode.submitEvidence tx.payload with
  | some .submitEvidence, .ok { evidenceType := .doubleSign, validator, data } =>
    (env.decode.doubleSign data).toOption.map fun ev => (validator, ev)
  | _, _ => none

structure Upheld (env : Env) (who : Address) (ev : DoubleSignEvidence) : Prop where
  differ : ev.blockHash1 ≠ ev.blockHash2
  signed : ∃ pub, unmarshalPublicKey env ev.publicKey = .ok pub ∧ pubkeyToAddress env pub = who ∧
    verify env ev.blockHash1 ev.signature1 pub = true ∧
    verify env ev.blockHash2 ev.signature2 pub = true

theorem processDoubleSign_ok {env : Env} {who : Address} {v : ValidatorInfo} {data : Bytes}
    {action : SlashAction} (h : processDoubleSign env who v data = .ok action) :
    ∃ ev, env.decode.doubleSign data = .ok ev ∧ Upheld env who ev ∧
      action.validator = who ∧ action.evidenceID = doubleSignEvidenceID env who ev.height := by
  unfold processDoubleSign at h
  cases hd : env.decode.doubleSign data with
  | error e => simp [hd] at h
  | ok ev =>
    simp only [hd] at h
    split at h
    · cases h
    · next hne =>
      split at h
      · cases h
      · next pub hp =>
        split at h
        · cases h
        · next hwho =>
          split at h
          · cases h
          · next h₁ =>
            split at h
            · cases h
            · next h₂ =>
              cases h
              rw [not_not] at hwho
              rw [Bool.not_eq_false] at h₁ h₂
              exact ⟨ev, rfl, ⟨hne, pub, hp, hwho, h₁, h₂⟩, rfl, rfl⟩

theorem processEvidence_doubleSign {env : Env} {s : Snapshot} {who : Address} {data : Bytes}
    {action : SlashAction} (h : processEvidence env s .doubleSign who data = .ok action) :
    ∃ v, processDoubleSign env who v data = .ok action := by
  unfold processEvidence at h
  split at h
  · cases h
  · next v _ =>
    split at h
    · cases h
    · exact ⟨v, h⟩

section Step

variable {env : Env} {cp : ChainParams} {s : Snapshot} {a : TimedTx} {who : Address}
  {ev : DoubleSignEvidence}

theorem accusation_eq_some (h : accusation env a.1 = some (who, ev)) : TxKind.ofCode a.1.type = some .submitEvidence ∧
    ∃ p, env.decode.submitEvidence a.1.payload = .ok p ∧ p.evidenceType = .doubleSign ∧
      p.validator = who ∧ env.decode.doubleSign p.data = .ok ev := by
  unfold accusation at h
  split at h
  · next validator data hkind hp =>
    refine ⟨hkind, _, hp, rfl, ?_⟩
    cases hd : env.decode.doubleSign data with
    | error e => simp [hd, Except.toOption] at h
    | ok ev' =>
      simp only [hd, Except.toOption, Option.map_some, Option.some.injEq, Prod.mk.injEq] at h
      obtain ⟨rfl, rfl⟩ := h
      exact ⟨rfl, rfl⟩
  · cases h

def sustained (env : Env) (s : Snapshot) (tx : Transaction) : Bool :=
  match env.decode.submitEvidence tx.payload with
  | .error _ => false
  | .ok p => (processEvidence env s p.evidenceType p.validator p.data).isOk

theorem accusation_succeeded (h : accusation env a.1 = some (who, ev)) (hs : succeeded env cp (s, a) = true) :
    Admitted env s a.1 ∧ sustained env s a.1 = true ∧ Upheld env who ev ∧
      s.isEvidenceProcessed (doubleSignEvidenceID env who ev.height) = false ∧
      (stepTx env cp s a).isEvidenceProcessed (doubleSignEvidenceID env who ev.height) = true := by
  obtain ⟨kind, p, hp, htype, rfl, hev⟩ := accusation_eq_some h
  rcases stepTx_cases env cp s a with ⟨-, s₁, hstep, heq⟩ | ⟨hfail, -⟩
  · have hchange := hstep.effect.changes.evidence
    generalize hused : s₁.processedEvidence = used at hchange
    cases hchange with
    | same hkind => exact absurd kind hkind
    | @used p' action hkind hp' evidence fresh =>
      obtain rfl : p = p' := Except.ok.inj (hp.symm.trans hp')
      obtain ⟨v, hv⟩ := processEvidence_doubleSign (htype ▸ evidence)
      obtain ⟨ev', hev', upheld, -, hid⟩ := processDoubleSign_ok hv
      obtain rfl : ev = ev' := Except.ok.inj (hev.symm.trans hev')
      rw [hid] at fresh
      refine ⟨⟨hstep.signed, hstep.nonce⟩, ?_, upheld, fresh, ?_⟩
      · simp [sustained, hp, evidence, Except.isOk, Except.toBool]
      · rw [heq]
        show s₁.processedEvidence.contains _ = true
        rw [hused, hid]
        exact ExtTreeSet.contains_insert_self
  · rw [hs] at hfail
    cases hfail

theorem isEvidenceProcessed_step {id : Hash} (h : s.isEvidenceProcessed id = true) :
    (stepTx env cp s a).isEvidenceProcessed id = true := by
  rcases stepTx_cases env cp s a with ⟨-, s₁, hstep, heq⟩ | ⟨-, heq⟩
  · have hchange := hstep.effect.changes.evidence
    rw [heq]
    show s₁.processedEvidence.contains id = true
    generalize s₁.processedEvidence = used at hchange
    cases hchange with
    | same => exact h
    | used =>
      rw [ExtTreeSet.contains_insert]
      exact Bool.or_eq_true_iff.mpr (.inr h)
  · rw [heq]
    exact h
end Step

section Once

variable (env : Env) (who : Address) (c₁ c₂ : Hash × Bytes)

def BuiltFrom (ev : DoubleSignEvidence) : Prop :=
  ((ev.blockHash1, ev.signature1) = c₁ ∧ (ev.blockHash2, ev.signature2) = c₂) ∨
  ((ev.blockHash1, ev.signature1) = c₂ ∧ (ev.blockHash2, ev.signature2) = c₁)

instance (ev : DoubleSignEvidence) : Decidable (BuiltFrom c₁ c₂ ev) :=
  inferInstanceAs (Decidable (_ ∨ _))

def reportedAt (tx : Transaction) : Option UInt64 :=
  match accusation env tx with
  | some (v, ev) => if v = who ∧ BuiltFrom c₁ c₂ ev then some ev.height else none
  | none => none

def sustainedAt (e : Snapshot × TimedTx) : Option UInt64 :=
  if Admitted env e.1 e.2.1 ∧ sustained env e.1 e.2.1 = true then reportedAt env who c₁ c₂ e.2.1
  else none

def punished (cp : ChainParams) (e : Snapshot × TimedTx) : Bool :=
  (reportedAt env who c₁ c₂ e.2.1).isSome && succeeded env cp e

variable {env who c₁ c₂} {cp : ChainParams} {s : Snapshot} {a : TimedTx}

theorem reportedAt_eq_some {height : UInt64} (h : reportedAt env who c₁ c₂ a.1 = some height) :
    ∃ ev, accusation env a.1 = some (who, ev) ∧ ev.height = height := by
  unfold reportedAt at h
  split at h
  · next v ev hacc =>
    split at h
    · next hv => exact ⟨ev, by rw [hacc, hv.1], Option.some.inj h⟩
    · cases h
  · cases h

theorem punished_step (h : punished env who c₁ c₂ cp (s, a) = true) :
    ∃ height, sustainedAt env who c₁ c₂ (s, a) = some height ∧
      s.isEvidenceProcessed (doubleSignEvidenceID env who height) = false ∧
      (stepTx env cp s a).isEvidenceProcessed (doubleSignEvidenceID env who height) = true := by
  unfold punished at h
  rw [Bool.and_eq_true, Option.isSome_iff_exists] at h
  obtain ⟨⟨height, hat⟩, hs⟩ := h
  obtain ⟨ev, hacc, rfl⟩ := reportedAt_eq_some hat
  obtain ⟨hadm, hsus, -, fresh, marked⟩ := accusation_succeeded hacc hs
  refine ⟨ev.height, ?_, fresh, marked⟩
  unfold sustainedAt
  rw [if_pos ⟨hadm, hsus⟩]
  exact hat

variable (env who c₁ c₂ cp) in
def OncePunished (height : UInt64) (tr : List (Snapshot × TimedTx)) (s : Snapshot) : Prop :=
  tr.countP (punished env who c₁ c₂ cp) ≤ if s.isEvidenceProcessed (doubleSignEvidenceID env who height) then 1 else 0

theorem OncePunished.step {height : UInt64} {tr : List (Snapshot × TimedTx)}
    (h : OncePunished env who c₁ c₂ cp height tr s)
    (hat : ∀ k, sustainedAt env who c₁ c₂ (s, a) = some k → k = height) :
    OncePunished env who c₁ c₂ cp height (tr ++ [(s, a)]) (stepTx env cp s a) := by
  unfold OncePunished at h ⊢
  rw [List.countP_append, List.countP_singleton]
  cases hp : punished env who c₁ c₂ cp (s, a) with
  | true =>
    obtain ⟨k, hk, fresh, marked⟩ := punished_step hp
    obtain rfl := hat k hk
    rw [fresh] at h
    rw [marked]
    exact Nat.add_le_add_right h 1
  | false =>
    refine h.trans ?_
    split
    · next hwas =>
      rw [isEvidenceProcessed_step hwas]
      exact Nat.le_refl 1
    · exact Nat.zero_le _
end Once

/-- **One slash per offence.** -/
theorem punished_once (env : Env) (g : GenesisConfig) (calls : List BlockCall) (who : Address)
    (c₁ c₂ : Hash × Bytes)
    (oneHeight : ((history env g calls).filterMap (sustainedAt env who c₁ c₂)).Pairwise (· = ·)) :
    (history env g calls).countP (punished env who c₁ c₂ (.ofGenesis g)) ≤ 1 := by
  -- the one height, or any if the pair was never sustained
  obtain ⟨height, hheight⟩ : ∃ height, ∀ e ∈ history env g calls, ∀ k,
      sustainedAt env who c₁ c₂ e = some k → k = height := by
    cases hl : (history env g calls).filterMap (sustainedAt env who c₁ c₂) with
    | nil =>
      refine ⟨0, fun e he k hk => ?_⟩
      have hmem : k ∈ (history env g calls).filterMap (sustainedAt env who c₁ c₂) :=
        List.mem_filterMap.mpr ⟨e, he, hk⟩
      rw [hl] at hmem
      cases hmem
    | cons height rest =>
      refine ⟨height, fun e he k hk => ?_⟩
      have hmem : k ∈ (history env g calls).filterMap (sustainedAt env who c₁ c₂) :=
        List.mem_filterMap.mpr ⟨e, he, hk⟩
      rw [hl] at hmem oneHeight
      rcases List.mem_cons.mp hmem with rfl | hrest
      · rfl
      · exact (List.rel_of_pairwise_cons oneHeight hrest).symm
  have next : ∀ tr s a, OncePunished env who c₁ c₂ (.ofGenesis g) height tr s →
      (∀ k, sustainedAt env who c₁ c₂ (s, a) = some k → k = height) →
      OncePunished env who c₁ c₂ (.ofGenesis g) height (tr ++ [(s, a)])
        (stepTx env (.ofGenesis g) s a) :=
    fun _ _ _ h hat => h.step hat
  have h : OncePunished env who c₁ c₂ (.ofGenesis g) height (history env g calls)
      (reached env g calls) :=
    trace_induction (Nat.zero_le _) next (timedTxs calls) hheight
  refine Nat.le_trans h ?_
  split
  · exact Nat.le_refl 1
  · exact Nat.zero_le 1

def reportedTwiceEnv : Env :=
  Testnet.env [Devnet.stakeTx, Devnet.createTx, Testnet.offenceTx, Testnet.reportedTx]
    [Testnet.blockA, Testnet.blockB]

def sealPair (b : Testnet.Seal) : Hash × Bytes := (b.hash, b.signature)

/-- Reported again in the other order, the pair is punished once. -/
theorem punished_once_reportedTwiceRun : (history reportedTwiceEnv Devnet.genesis Testnet.reportedTwiceRun).countP
      (punished reportedTwiceEnv Devnet.validatorAddress (sealPair Testnet.blockA)
        (sealPair Testnet.blockB) (.ofGenesis Devnet.genesis)) ≤ 1 :=
  punished_once reportedTwiceEnv Devnet.genesis Testnet.reportedTwiceRun Devnet.validatorAddress
    (sealPair Testnet.blockA) (sealPair Testnet.blockB) (by decide +kernel)

def twoHeightsEnv : Env :=
  Testnet.env [Devnet.stakeTx, Devnet.createTx, Testnet.offenceTx, Testnet.shiftedTx]
    [Testnet.blockA, Testnet.blockB]

/-- **The same two signatures slash twice**: the second report claims the next height. -/
theorem punished_twice_twoHeightsRun : ¬ ∀ (env : Env) (g : GenesisConfig) (calls : List BlockCall) (who : Address)
      (c₁ c₂ : Hash × Bytes),
      (history env g calls).countP (punished env who c₁ c₂ (.ofGenesis g)) ≤ 1 := by
  intro h
  have hrun := h twoHeightsEnv Devnet.genesis Testnet.twoHeightsRun Devnet.validatorAddress
    (sealPair Testnet.blockA) (sealPair Testnet.blockB)
  exact absurd hrun (by decide +kernel)

structure HonestKey (env : Env) (who : Address) (signed : List Hash) : Prop where
  genuine : ∀ pub hash sig, pubkeyToAddress env pub = who → verify env hash sig pub = true → hash ∈ signed
  own : ∀ hash ∈ signed, (∃ tx : Transaction, tx.fromAddr = who ∧ hash = env.sha256 (signableBytes env tx)) ∨
    ∃ header : BlockHeader, hash = env.sha256 (env.encode.header header)
  once : ∀ header header' : BlockHeader, header.height = header'.height →
    env.sha256 (env.encode.header header) ∈ signed →
    env.sha256 (env.encode.header header') ∈ signed →
      env.sha256 (env.encode.header header) = env.sha256 (env.encode.header header')

def AboutBlocks (env : Env) (ev : DoubleSignEvidence) : Prop :=
  ∃ header header' : BlockHeader, header.height = ev.height.toNat ∧
    header'.height = ev.height.toNat ∧ ev.blockHash1 = env.sha256 (env.encode.header header) ∧
    ev.blockHash2 = env.sha256 (env.encode.header header')

theorem HonestKey.not_upheld {env : Env} {who : Address} {signed : List Hash}
    {ev : DoubleSignEvidence} (honest : HonestKey env who signed) (about : AboutBlocks env ev) : ¬ Upheld env who ev := by
  rintro ⟨differ, pub, -, hwho, h₁, h₂⟩
  obtain ⟨header, header', hheight, hheight', heq, heq'⟩ := about
  have hsigned := honest.genuine pub _ _ hwho h₁
  have hsigned' := honest.genuine pub _ _ hwho h₂
  rw [heq] at hsigned
  rw [heq'] at hsigned'
  apply differ
  rw [heq, heq']
  exact honest.once header header' (hheight.trans hheight'.symm) hsigned hsigned'

/-- **An honest key is never slashed for double signing**, in every run in which evidence that the
    key's signatures uphold is about two blocks of the height it claims. -/
theorem honest_not_slashed (env : Env) (g : GenesisConfig) (calls : List BlockCall) (who : Address)
    (signed : List Hash) (honest : HonestKey env who signed)
    (aboutBlocks : ∀ e ∈ history env g calls, Admitted env e.1 e.2.1 →
      ∀ ev, accusation env e.2.1 = some (who, ev) → Upheld env who ev → AboutBlocks env ev) :
    ∀ e ∈ history env g calls, ∀ ev, accusation env e.2.1 = some (who, ev) →
      succeeded env (.ofGenesis g) e = false := by
  intro e he ev hacc
  cases hs : succeeded env (.ofGenesis g) e with
  | false => rfl
  | true =>
    obtain ⟨hadm, -, upheld, -, -⟩ := accusation_succeeded hacc hs
    exact absurd upheld (honest.not_upheld (aboutBlocks e he hadm ev hacc upheld))

section Signed

variable (txs : List Transaction)

theorem sha256_header (header : BlockHeader) : (Testnet.env txs).sha256 ((Testnet.env txs).encode.header header) = 0 := by
  have hstart : (Testnet.headerJSON header)[2]? = some 104 := rfl
  have hnoTx : txs.find? (fun tx => Devnet.signableJSON tx.type tx.fromAddr tx.nonce tx.payload =
      Testnet.headerJSON header) = none := by
    rw [List.find?_eq_none]
    intro tx _ heq
    rw [decide_eq_true_eq] at heq
    have htx : (Devnet.signableJSON tx.type tx.fromAddr tx.nonce tx.payload)[2]? = some 116 := rfl
    rw [heq, hstart] at htx
    exact absurd htx (by decide)
  have hnoID : Testnet.offenceIDs.find? (·.1 = Testnet.headerJSON header) = none := by
    rw [List.find?_eq_none]
    intro id hid heq
    rw [decide_eq_true_eq] at heq
    have hids : ∀ id ∈ Testnet.offenceIDs, id.1[2]? = some 0x7e := by decide +kernel
    have h := hids id hid
    rw [heq, hstart] at h
    exact absurd h (by decide)
  show (txs.find? (fun tx => Devnet.signableJSON tx.type tx.fromAddr tx.nonce tx.payload =
    Testnet.headerJSON header)).elim ((Testnet.offenceIDs.find? (·.1 = Testnet.headerJSON header)).elim
      0 (·.2)) (·.hash) = 0
  rw [hnoTx, hnoID]
  rfl

theorem pubkeyToAddress_testnet (pub : PublicKey) : pubkeyToAddress (Testnet.env txs) pub =
    (Testnet.keccak256 ((Devnet.marshalPoint pub).drop 1)).setWidth 160 := by
  have hkeccak : (Testnet.env txs).keccak256 = Testnet.keccak256 := rfl
  have hmarshal : (Testnet.env txs).marshalPoint = Devnet.marshalPoint := rfl
  rw [pubkeyToAddress, hkeccak, hmarshal]

theorem verify_signed {pub : PublicKey} {hash : Hash} {sig : Bytes} (h : verify (Testnet.env txs) hash sig pub = true) :
    ∃ tx ∈ txs, tx.hash = hash ∧ tx.pubKey = Devnet.marshalPoint pub := by
  unfold verify at h
  split at h
  · cases h
  · simp only [Testnet.env, List.any_nil, Bool.false_eq_true, and_false, decide_false, Bool.or_false,
      List.any_eq_true, decide_eq_true_eq] at h
    obtain ⟨tx, htx, hhash, hkey, -⟩ := h
    exact ⟨tx, htx, hhash, hkey⟩

theorem honestKey_testnet {who : Address} {signed : List Hash}
    (mine : ∀ tx ∈ txs, ((Testnet.keccak256 (tx.pubKey.drop 1)).setWidth 160 = who → tx.hash ∈ signed))
    (own : (signed.all fun hash => txs.any fun tx => tx.fromAddr = who ∧
      hash = (Testnet.env txs).sha256 (signableBytes (Testnet.env txs) tx)) = true)
    (nonzero : 0 ∉ signed) : HonestKey (Testnet.env txs) who signed where
  genuine := by
    intro pub hash sig hwho hverify
    obtain ⟨tx, htx, rfl, hkey⟩ := verify_signed txs hverify
    apply mine tx htx
    rw [hkey, ← pubkeyToAddress_testnet txs]
    exact hwho
  own := by
    intro hash hmem
    obtain ⟨tx, -, htx⟩ := List.any_eq_true.mp (List.all_eq_true.mp own hash hmem)
    rw [decide_eq_true_eq] at htx
    exact .inl ⟨tx, htx⟩
  once := by
    intro header _ _ hmem
    rw [sha256_header] at hmem
    exact absurd hmem nonzero
end Signed

def slanderTxs : List Transaction := [Devnet.stakeTx, Devnet.createTx, Testnet.offenceTx]

/-- An accusation with signatures the key did not make fails. -/
theorem honest_not_slashed_slander : ((history (Testnet.env slanderTxs) Devnet.genesis Testnet.slanderRun).any fun e =>
      (accusation (Testnet.env slanderTxs) e.2.1).any (·.1 = Devnet.validatorAddress)) = true ∧
    ∀ e ∈ history (Testnet.env slanderTxs) Devnet.genesis Testnet.slanderRun, ∀ ev,
      accusation (Testnet.env slanderTxs) e.2.1 = some (Devnet.validatorAddress, ev) →
        succeeded (Testnet.env slanderTxs) (.ofGenesis Devnet.genesis) e = false :=
  ⟨by decide +kernel, honest_not_slashed (Testnet.env slanderTxs) Devnet.genesis Testnet.slanderRun
    Devnet.validatorAddress [Devnet.stakeTx.hash]
    (honestKey_testnet slanderTxs (by decide +kernel) (by decide +kernel) (by decide +kernel)) (by
    intro e he _ ev hacc upheld
    have hnone : ∀ e ∈ history (Testnet.env slanderTxs) Devnet.genesis Testnet.slanderRun,
        (accusation (Testnet.env slanderTxs) e.2.1).all
          (fun acc => acc.2.blockHash1 ∉ slanderTxs.map (·.hash)) = true := by
      decide +kernel
    have hnot := hnone e he
    rw [hacc, Option.all_some, decide_eq_true_eq] at hnot
    obtain ⟨pub, -, -, hverify, -⟩ := upheld.signed
    obtain ⟨tx, htx, hhash, -⟩ := verify_signed slanderTxs hverify
    exact absurd (List.mem_map.mpr ⟨tx, htx, hhash⟩) hnot)⟩

def framedTxs : List Transaction :=
  [Devnet.stakeTx, Devnet.createTx, Devnet.voteTx, Testnet.framedTx]

/-- **Two transactions of its own convict a validator**: their hashes are as good as block hashes
    to the checker. -/
theorem honest_slashed_framedRun : ¬ ∀ (env : Env) (g : GenesisConfig) (calls : List BlockCall) (who : Address)
      (signed : List Hash), HonestKey env who signed →
      ∀ e ∈ history env g calls, ∀ ev, accusation env e.2.1 = some (who, ev) →
        succeeded env (.ofGenesis g) e = false := by
  intro h
  have honest : HonestKey (Testnet.env framedTxs) Devnet.validatorAddress
      [Devnet.stakeTx.hash, Devnet.voteTx.hash] :=
    honestKey_testnet framedTxs (by decide +kernel) (by decide +kernel) (by decide +kernel)
  have hall := h (Testnet.env framedTxs) Devnet.genesis Testnet.framedRun Devnet.validatorAddress
    _ honest
  have hrun : (history (Testnet.env framedTxs) Devnet.genesis Testnet.framedRun).any (fun e =>
      (accusation (Testnet.env framedTxs) e.2.1).any (·.1 = Devnet.validatorAddress) &&
        succeeded (Testnet.env framedTxs) (.ofGenesis Devnet.genesis) e) = true := by
    decide +kernel
  rw [List.any_eq_true] at hrun
  obtain ⟨e, he, hslash⟩ := hrun
  rw [Bool.and_eq_true, Option.any_eq_true] at hslash
  obtain ⟨⟨⟨who, ev⟩, hacc, hwho⟩, hs⟩ := hslash
  rw [decide_eq_true_eq] at hwho
  subst hwho
  rw [hall e he ev hacc] at hs
  cases hs

end LinkMint.Chain
