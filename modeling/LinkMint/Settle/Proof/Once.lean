import LinkMint.Settle.Devnet
import LinkMint.Settle.Proof.Calls

/-!
# One settlement per proof

The validator's two guards against settling twice, the primary key of the proof table and the
chain's set of used proofs, are keyed by the proof hash, and the hash covers the PayLink.
-/

namespace LinkMint.Settle

open LinkMint.Lib LinkMint.Chain

def Event.settlement? : Event → Option SettlementTx
  | .sent tx _ => some tx
  | _ => none

def sends (n : Nat) (s : World) : List SettlementTx := (own n s).filterMap Event.settlement?

structure Names (D : Deployment) (p : Proof) (tx : SettlementTx) : Prop where
  signed : CorrectlySigned D.env D.trusted p
  payLinkID : tx.payLinkID = hexToHash p.payLinkID
  proofHash : tx.proofHash = p.hash D.env

def Modest (D : Deployment) (p : Proof) (txs : List SettlementTx) : Prop :=
  txs.length ≤ 1 ∧ ∀ tx ∈ txs, Names D p tx

structure InsertedOnce (s : World) : Prop where
  unique : ∀ n m h, (n, .inserted h) ∈ s.log → (m, .inserted h) ∈ s.log → n = m
  stored : ∀ n h, (n, .inserted h) ∈ s.log → s.proofs h ≠ none
  backed : ∀ n tx b, (n, .sent tx b) ∈ s.log → (n, .inserted tx.proofHash) ∈ s.log

def once (D : Deployment) : Contract Op Proof World Choice where
  inv := InsertedOnce
  guard _ _ _ _ _ := True
  rely := Others
  fresh n s := own n s = []
  always n p s := Modest D p (sends n s)

section
variable {n : Nat} {s s' : World}

theorem Others.sends (h : Others n s s') : sends n s' = sends n s := by
  simp only [Settle.sends, h.own]

theorem InsertedOnce.congr (hs : InsertedOnce s) (hlog : s'.log = s.log)
    (hproofs : ∀ h, s.proofs h ≠ none → s'.proofs h ≠ none) : InsertedOnce s' where
  unique := by
    rw [hlog]
    exact hs.unique
  stored k h hmem := by
    rw [hlog] at hmem
    exact hproofs h (hs.stored k h hmem)
  backed := by
    rw [hlog]
    exact hs.backed

theorem InsertedOnce.note (hs : InsertedOnce s) {e : Event} (hins : ∀ h, e ≠ .inserted h)
    (hsent : ∀ tx b, e ≠ .sent tx b) : InsertedOnce (s.note n e) where
  unique k m h hk hm := by
    rcases List.mem_cons.mp hk with heq | hk
    · exact absurd (Prod.mk.inj heq).2.symm (hins h)
    rcases List.mem_cons.mp hm with heq | hm
    · exact absurd (Prod.mk.inj heq).2.symm (hins h)
    exact hs.unique k m h hk hm
  stored k h hk := by
    rcases List.mem_cons.mp hk with heq | hk
    · exact absurd (Prod.mk.inj heq).2.symm (hins h)
    exact hs.stored k h hk
  backed k tx b hk := by
    rcases List.mem_cons.mp hk with heq | hk
    · exact absurd (Prod.mk.inj heq).2.symm (hsent tx b)
    exact List.mem_cons_of_mem _ (hs.backed k tx b hk)

theorem InsertedOnce.insert (hs : InsertedOnce s) {rec : ProofRecord} (habsent : s.proofs rec.proofHash = none)
    (hlog : s'.log = (n, .inserted rec.proofHash) :: s.log)
    (hproofs : s'.proofs = Function.update s.proofs rec.proofHash (some rec)) : InsertedOnce s' := by
  have hnew : ∀ k, (k, .inserted rec.proofHash) ∉ s.log := fun k hk => hs.stored k _ hk habsent
  constructor
  · intro k m h hk hm
    rw [hlog] at hk hm
    rcases List.mem_cons.mp hk with heqk | hold
    · obtain ⟨hkn, hh⟩ := Prod.mk.inj heqk
      rcases List.mem_cons.mp hm with heqm | hold
      · exact hkn.trans (Prod.mk.inj heqm).1.symm
      · rw [Event.inserted.inj hh] at hold
        exact absurd hold (hnew m)
    · rcases List.mem_cons.mp hm with heqm | hold'
      · rw [Event.inserted.inj (Prod.mk.inj heqm).2] at hold
        exact absurd hold (hnew k)
      · exact hs.unique k m h hold hold'
  · intro k h hk
    rw [hproofs]
    by_cases hh : h = rec.proofHash
    · rw [hh, Function.update_self]
      simp
    · rw [Function.update_of_ne hh]
      rw [hlog] at hk
      rcases List.mem_cons.mp hk with heq | hk
      · exact absurd (Event.inserted.inj (Prod.mk.inj heq).2) hh
      · exact hs.stored k h hk
  · intro k tx b hk
    rw [hlog] at hk ⊢
    rcases List.mem_cons.mp hk with heq | hk
    · cases (Prod.mk.inj heq).2
    · exact List.mem_cons_of_mem _ (hs.backed k tx b hk)

theorem InsertedOnce.send (hs : InsertedOnce s) {tx : SettlementTx} {accepted : Bool}
    (hinserted : (n, .inserted tx.proofHash) ∈ s.log) : InsertedOnce (s.note n (.sent tx accepted)) where
  unique k m h hk hm := by
    rcases List.mem_cons.mp hk with heq | hk
    · cases (Prod.mk.inj heq).2
    rcases List.mem_cons.mp hm with heq | hm
    · cases (Prod.mk.inj heq).2
    exact hs.unique k m h hk hm
  stored k h hk := by
    rcases List.mem_cons.mp hk with heq | hk
    · cases (Prod.mk.inj heq).2
    exact hs.stored k h hk
  backed k tx' b hk := by
    rcases List.mem_cons.mp hk with heq | hk
    · obtain ⟨rfl, hsent⟩ := Prod.mk.inj heq
      obtain ⟨rfl, -⟩ := Event.sent.inj hsent
      exact List.mem_cons_of_mem _ hinserted
    exact List.mem_cons_of_mem _ (hs.backed k tx' b hk)

theorem update_ne_none {rows : Hash → Option ProofRecord} {k h : Hash} {rec : ProofRecord}
    (hrow : rows h ≠ none) : Function.update rows k (some rec) h ≠ none := by
  by_cases hh : h = k
  · rw [hh, Function.update_self]
    exact Option.some_ne_none rec
  · rw [Function.update_of_ne hh]
    exact hrow

def Op.isSend : Op → Bool
  | .sendTransaction _ => true
  | _ => false

theorem InsertedOnce.touches {i : Op} (hs : InsertedOnce s) (h : Touches n s i s')
    (hi : i.isSend = false) : InsertedOnce s' := by
  cases h with
  | nothing log proofs =>
    apply hs.congr log
    intro h hrow
    rw [proofs]
    exact hrow
  | correlated rec => exact hs.note (by simp) (by simp)
  | proofUsed b => exact hs.note (by simp) (by simp)
  | answered => exact hs.note (by simp) (by simp)
  | sent accepted => cases hi
  | stored absent log proofs =>
    rcases log with hlog | hlog
    · apply hs.congr hlog
      intro h hrow
      rw [proofs]
      exact update_ne_none hrow
    · exact hs.insert absent hlog proofs
  | marked rec row log proofs =>
    apply hs.congr log
    intro h hrow
    rw [proofs]
    exact update_ne_none hrow
end

structure Unsending (n : Nat) (s s' : World) : Prop where
  grows : s.log ⊆ s'.log
  sends : sends n s' = sends n s

instance (n : Nat) : Std.Refl (Unsending n) := ⟨fun _ => ⟨List.Subset.refl _, rfl⟩⟩

instance (n : Nat) : IsTrans World (Unsending n) :=
  ⟨fun _ _ _ h h' => ⟨List.Subset.trans h.grows h'.grows, h'.sends.trans h.sends⟩⟩

theorem sends_cons {n : Nat} {s s' : World} {e : Event} (h : s'.log = (n, e) :: s.log)
    (he : e.settlement? = none) : sends n s' = sends n s := by
  simp only [sends, own_cons h, if_pos]
  exact List.filterMap_cons_none he

theorem Touches.unsending {n : Nat} {i : Op} {s s' : World} (h : Touches n s i s')
    (hi : i.isSend = false) : Unsending n s s' := by
  refine ⟨h.grows, ?_⟩
  cases h with
  | nothing log _ => simp only [sends, own_congr log]
  | correlated rec => exact sends_cons rfl rfl
  | proofUsed b => exact sends_cons rfl rfl
  | answered => exact sends_cons rfl rfl
  | sent accepted => cases hi
  | stored _ log _ =>
    rcases log with hlog | hlog
    · simp only [sends, own_congr hlog]
    · exact sends_cons hlog rfl
  | marked _ _ log _ => simp only [sends, own_congr log]

section Specs

variable {D : Deployment} {n : Nat} {p : Proof} {s : World}

abbrev Keeps (D : Deployment) (n : Nat) (p : Proof) {α : Type} (prog : Proc α) (s : World)
    (post : α → World → Prop) : Prop :=
  Ensures serve (once D) n p (Unsending n) prog s post

theorem keeps_op {i : Op} {post : i.Answer → World → Prop} (hi : i.isSend = false) (hmodest : Modest D p (sends n s))
    (hpost : ∀ s₁ c a s₂, serve n p s₁ i c = some (a, s₂) → post a s₂) : Keeps D n p (Prog.op i) s post := by
  refine Ensures.op (fun s' h => ⟨h.grows, h.sends⟩) ?_
  intro s₁ hs hinv c _ a s₂ hserve
  have htouches := serve_cases hserve
  have hframe := htouches.unsending hi
  refine ⟨hinv.touches htouches hi, fun _ hm => htouches.others hm, ?_, hframe, hpost s₁ c a s₂ hserve⟩
  change Modest D p (sends n s₂)
  rw [hframe.sends, hs.sends]
  exact hmodest

theorem keeps_call {α : Type} {i : Op} {f : i.Answer → Proc α} {post : α → World → Prop}
    (hi : i.isSend = false) (hmodest : Modest D p (sends n s))
    (hf : ∀ a s', Unsending n s s' → Keeps D n p (f a) s' post) : Keeps D n p (Prog.op i >>= f) s post := by
  have hop : Keeps D n p (Prog.op i) s fun _ _ => True := keeps_op hi hmodest fun _ _ _ _ _ => trivial
  exact Ensures.bind hop fun a s' hs _ => hf a s' hs

theorem keeps_ret {α : Type} {a : α} : Keeps D n p (pure a) s fun _ _ => True := Ensures.ret trivial

theorem Unsending.modest {s' : World} (h : Unsending n s s') (hmodest : Modest D p (Settle.sends n s)) :
    Modest D p (Settle.sends n s') := by
  rw [h.sends]
  exact hmodest

theorem reserve_keeps (a : Address) (hmodest : Modest D p (sends n s)) : Keeps D n p (reserve a) s fun _ _ => True := by
  refine keeps_call rfl hmodest ?_
  intro _ s₁ hs₁
  have hmodest₁ := hs₁.modest hmodest
  refine keeps_call rfl hmodest₁ ?_
  intro reply s₂ hs₂
  have hmodest₂ := hs₂.modest hmodest₁
  cases chainErr reply with
  | error e => exact keeps_call rfl hmodest₂ fun _ _ _ => keeps_ret
  | ok chainNonce => exact keeps_call rfl hmodest₂ fun _ _ _ => keeps_ret

theorem crossCheckPayLink_keeps (hmodest : Modest D p (sends n s)) :
    Keeps D n p (Service.crossCheckPayLink p) s fun _ _ => True := by
  refine keeps_call rfl hmodest ?_
  intro reply s₁ hs₁
  cases foundPayLink reply with
  | error e => exact keeps_ret
  | ok found =>
    cases found with
    | none => exact keeps_ret
    | some pl =>
      dsimp only
      split_ifs
      · exact keeps_ret
      · exact keeps_ret
      · exact keeps_ret
      · refine keeps_call rfl (hs₁.modest hmodest) ?_
        intro now s₂ _
        split_ifs
        · exact keeps_ret
        · exact keeps_ret

theorem resultForExisting_keeps (h : Hash) (hmodest : Modest D p (sends n s)) :
    Keeps D n p (Service.resultForExisting h) s fun _ _ => True := by
  refine keeps_call rfl hmodest ?_
  intro res s₁ _
  cases res with
  | error m => exact keeps_ret
  | ok row =>
    cases row with
    | none => exact keeps_ret
    | some rec => exact keeps_ret

theorem holds_send {α : Type} {tx : SettlementTx} {f : Rpc String → Proc α} {post : α → World → Prop}
    (hunsent : sends n s = []) (hinserted : (n, .inserted tx.proofHash) ∈ s.log) (hnames : Names D p tx)
    (hf : ∀ a s', Modest D p (sends n s') → Holds serve (once D) n p (f a) post s') :
    Holds serve (once D) n p (Call.sendTransaction tx >>= f) post s := by
  intro s₁ hrely hinv c _ a s₂ hserve
  have htouches := serve_cases hserve
  have hinserted₁ : (n, .inserted tx.proofHash) ∈ s₁.log := hrely.grows hinserted
  have hunsent₁ : sends n s₁ = [] := hrely.sends.trans hunsent
  have hsent : InsertedOnce s₂ ∧ Modest D p (sends n s₂) := by
    cases htouches with
    | nothing log proofs =>
      refine ⟨hinv.congr log fun h hrow => by rw [proofs]; exact hrow, ?_⟩
      have hsends : sends n s₂ = [] := by
        simp only [sends, own_congr log]
        exact hunsent₁
      rw [hsends]
      exact ⟨Nat.zero_le 1, by simp⟩
    | sent accepted =>
      refine ⟨hinv.send hinserted₁, ?_⟩
      have hsends : sends n (s₁.note n (.sent tx accepted)) = [tx] := by
        have hown : own n (s₁.note n (.sent tx accepted)) = .sent tx accepted :: own n s₁ := by
          rw [own_cons rfl, if_pos rfl]
        simp only [sends, hown]
        exact congrArg (tx :: ·) hunsent₁
      rw [hsends]
      refine ⟨Nat.le_refl 1, ?_⟩
      intro tx' htx'
      rw [List.mem_singleton.mp htx']
      exact hnames
  exact ⟨hsent.1, fun _ hm => htouches.others hm, hsent.2, hf a s₂ hsent.2⟩

theorem broadcastSettlement_holds (hunsent : sends n s = []) (hinserted : (n, .inserted (p.hash D.env)) ∈ s.log)
    (hsigned : CorrectlySigned D.env D.trusted p) :
    Holds serve (once D) n p (Service.broadcastSettlement D (hexToHash p.payLinkID) (p.hash D.env))
      (fun _ s' => Modest D p (sends n s')) s := by
  have hnone : ∀ s', sends n s' = [] → Modest D p (sends n s') := by
    intro s' h
    rw [h]
    exact ⟨Nat.zero_le 1, by simp⟩
  apply Holds.bind (reserve_keeps D.signer (hnone s hunsent))
  intro res s₁ hs₁
  have hunsent₁ : sends n s₁ = [] := hs₁.1.sends.trans hunsent
  cases res with
  | error e => exact hnone s₁ hunsent₁
  | ok nonce =>
    have hsign : Keeps D n p (Call.signTx
        { fromAddr := D.signer, nonce := nonce, payLinkID := hexToHash p.payLinkID,
          proofHash := p.hash D.env }) s₁ fun _ _ => True :=
      keeps_op rfl (hnone s₁ hunsent₁) fun _ _ _ _ _ => trivial
    apply Holds.bind hsign
    intro signed s₂ hs₂
    have hunsent₂ : sends n s₂ = [] := hs₂.1.sends.trans hunsent₁
    cases signed with
    | error m =>
      have hcommit : Keeps D n p (Call.commitNonce D.signer none) s₂ fun _ _ => True :=
        keeps_op rfl (hnone s₂ hunsent₂) fun _ _ _ _ _ => trivial
      apply Holds.bind hcommit
      intro _ s₃ hs₃
      exact hnone s₃ (hs₃.1.sends.trans hunsent₂)
    | ok _ =>
      apply holds_send hunsent₂ (hs₂.1.grows (hs₁.1.grows hinserted)) ⟨hsigned, rfl, rfl⟩
      intro reply s₃ hmodest
      have hcommit : Keeps D n p (Call.commitNonce D.signer
          (if (chainErr reply).isOk then some (nonce + 1) else none)) s₃ fun _ _ => True :=
        keeps_op rfl hmodest fun _ _ _ _ _ => trivial
      apply Holds.bind hcommit
      intro _ s₄ hs₄
      exact hs₄.1.modest hmodest

theorem insertProof_keeps (rec : ProofRecord) (hmodest : Modest D p (sends n s)) :
    Keeps D n p (Call.insertProof rec) s fun res s' =>
      res = .ok → (n, .inserted rec.proofHash) ∈ s'.log := by
  refine keeps_op rfl hmodest ?_
  intro s₁ c a s₂ hserve hok
  rcases serveInsertProof_cases hserve with ⟨-, hne⟩ | ⟨-, -, ⟨-, hlog⟩ | ⟨hne, -⟩⟩
  · exact absurd hok hne
  · rw [hlog]
    exact List.mem_cons_self
  · exact absurd hok hne

theorem persistAndBroadcast_holds (hunsent : sends n s = []) (hsigned : CorrectlySigned D.env D.trusted p) :
    Holds serve (once D) n p (Service.persistAndBroadcast D p (p.hash D.env)) (fun _ _ => True) s := by
  have hmodest : Modest D p (sends n s) := by
    rw [hunsent]
    exact ⟨Nat.zero_le 1, by simp⟩
  apply Holds.bind (insertProof_keeps _ hmodest)
  intro inserted s₁ hs₁
  cases inserted with
  | proofExists =>
    apply Holds.mono (resultForExisting_keeps _ (hs₁.1.modest hmodest))
    intro _ _ _
    trivial
  | failed m => trivial
  | ok =>
    apply Holds.bind (broadcastSettlement_holds (hs₁.1.sends.trans hunsent) (hs₁.2 rfl) hsigned)
    intro res s₂ hmodest₂
    cases res with
    | error e => trivial
    | ok txHash =>
      have hmark : Keeps D n p (Call.markBroadcast (p.hash D.env) txHash .broadcast) s₂ fun _ _ => True :=
        keeps_op rfl hmodest₂ fun _ _ _ _ _ => trivial
      apply Holds.bind hmark
      intro _ _ _
      trivial

theorem submitProof_holds (hunsent : sends n s = []) :
    Holds serve (once D) n p (Service.submitProof D p) (fun _ _ => True) s := by
  have hnone : ∀ s', sends n s' = [] → Modest D p (sends n s') := by
    intro s' h
    rw [h]
    exact ⟨Nat.zero_le 1, by simp⟩
  unfold Service.submitProof
  cases hshape : validateShape p with
  | error e => trivial
  | ok _ =>
    cases hverify : verifyProof D.env D.trusted p with
    | error e => trivial
    | ok _ =>
      have hused : Keeps D n p (Call.isProofUsed (p.hash D.env)) s fun _ _ => True :=
        keeps_op rfl (hnone s hunsent) fun _ _ _ _ _ => trivial
      apply Holds.bind hused
      intro reply s₁ hs₁
      have hunsent₁ : sends n s₁ = [] := hs₁.1.sends.trans hunsent
      cases chainErr reply with
      | error e => trivial
      | ok used =>
        cases used with
        | true =>
          apply Holds.bind (insertProof_keeps _ (hnone s₁ hunsent₁))
          intro _ _ _
          trivial
        | false =>
          have hcheck : Keeps D n p (if D.crossCheck then Service.crossCheckPayLink p else pure (.ok ())) s₁
              fun _ _ => True := by
            split_ifs
            · exact crossCheckPayLink_keeps (hnone s₁ hunsent₁)
            · exact keeps_ret
          apply Holds.bind hcheck
          intro res s₂ hs₂
          cases res with
          | error e => trivial
          | ok _ =>
            exact persistAndBroadcast_holds (hs₂.1.sends.trans hunsent₁) ⟨hshape, hverify⟩
end Specs

theorem once_stable (D : Deployment) : (once D).Stable drift where
  refl := Others.refl
  trans _ _ _ _ h h' := h.trans h'
  fresh _ _ _ h h' := h'.own.trans h
  always n p s s' h h' := by
    change Modest D p (sends n s')
    rw [h'.sends]
    exact h
  drift s w h := by
    refine ⟨h.congr (drift_log s w) ?_, drift_others s w⟩
    intro k hrow
    rw [drift_proofs]
    exact hrow

theorem once_sound (D : Deployment) (moves : List (Move Proof Choice Drift)) :
    Sound (submissions D) (once D) (fun _ _ _ _ => True) ((submissions D).exec {} moves) := by
  have hinv : InsertedOnce {} := by
    constructor
    · intro n m h hmem
      cases hmem
    · intro n h hmem
      cases hmem
    · intro n tx b hmem
      cases hmem
  have hguard : ∀ e ∈ trace (submissions D).step { shared := {} } moves, Meets (once D) e.1 e.2 := by
    intro e _
    cases hm : e.2 with
    | start r => trivial
    | drift w => trivial
    | run n c => exact fun _ _ _ _ => trivial
  refine System.sound (submissions D) (once D) (once_stable D) (fun _ _ _ _ _ _ _ => trivial) ?_ hinv
    (fun _ => rfl) moves hguard
  intro n p s _ hfresh
  have hunsent : sends n s = [] := by
    simp only [sends]
    rw [show own n s = [] from hfresh, List.filterMap_nil]
  refine ⟨?_, submitProof_holds hunsent⟩
  change Modest D p (sends n s)
  rw [hunsent]
  exact ⟨Nat.zero_le 1, by simp⟩

def Event.carries (h : Hash) : Event → Bool
  | .sent tx _ => tx.proofHash == h
  | _ => false

def Handed (c : Config Op Op.Answer Proof World (Except GoError SubmitView)) (p : Proof)
    (tx : SettlementTx) : Prop :=
  ∃ e ∈ c.shared.log, e.2.settlement? = some tx ∧ (c.procs[e.1]?.map Prod.fst) = some p

instance (c : Config Op Op.Answer Proof World (Except GoError SubmitView)) (p : Proof)
    (tx : SettlementTx) : Decidable (Handed c p tx) :=
  inferInstanceAs (Decidable (∃ e ∈ c.shared.log, _ ∧ _))

theorem length_sends (n : Nat) (s : World) :
    (sends n s).length = s.log.countP fun e => e.1 == n && e.2.settlement?.isSome := by
  rw [sends, own, List.filterMap_filterMap, List.length_filterMap_eq_countP]
  apply List.countP_congr
  intro e _
  by_cases hn : e.1 = n
  · simp [hn]
  · simp [hn]

section
variable {D : Deployment} {c : Config Op Op.Answer Proof World (Except GoError SubmitView)}
  {post : Nat → Proof → Except GoError SubmitView → World → Prop}

theorem modest_of_mem_log (hsound : Sound (submissions D) (once D) post c) {n : Nat} {e : Event}
    (hmem : (n, e) ∈ c.shared.log) : ∃ p, c.procs[n]?.map Prod.fst = some p ∧ Modest D p (sends n c.shared) := by
  cases hproc : c.procs[n]? with
  | none =>
    have hfresh : own n c.shared = [] := hsound.fresh n (List.getElem?_eq_none_iff.mp hproc)
    have hown := mem_own.mpr hmem
    rw [hfresh] at hown
    cases hown
  | some proc =>
    obtain ⟨p, prog⟩ := proc
    exact ⟨p, rfl, (hsound.procs n p prog hproc).1⟩

theorem countP_carries_le (hsound : Sound (submissions D) (once D) post c) (h : Hash) :
    c.shared.log.countP (·.2.carries h) ≤ 1 := by
  have hinserted : ∀ m e, (m, e) ∈ c.shared.log → e.carries h = true → (m, .inserted h) ∈ c.shared.log := by
    intro m e hmem hcarries
    cases e with
    | sent tx b =>
      have hback := hsound.inv.backed m tx b hmem
      rw [eq_of_beq hcarries] at hback
      exact hback
    | _ => cases hcarries
  by_cases hany : ∃ e ∈ c.shared.log, e.2.carries h = true
  · obtain ⟨⟨n, e⟩, hmem, hcarries⟩ := hany
    obtain ⟨p, -, hmodest⟩ := modest_of_mem_log hsound hmem
    have hmine : c.shared.log.countP (·.2.carries h) ≤
        c.shared.log.countP fun e => e.1 == n && e.2.settlement?.isSome := by
      apply List.countP_mono_left
      rintro ⟨m, e'⟩ hmem' hcarries'
      have heq : m = n := hsound.inv.unique m n h (hinserted m e' hmem' hcarries') (hinserted n e hmem hcarries)
      cases e' with
      | sent tx b => simp [heq, Event.settlement?]
      | _ => cases hcarries'
    calc c.shared.log.countP (·.2.carries h)
        ≤ (sends n c.shared).length := by rw [length_sends]; exact hmine
      _ ≤ 1 := hmodest.1
  · have hzero : c.shared.log.countP (·.2.carries h) = 0 := by
      apply List.countP_eq_zero.mpr
      intro e hmem hcarries
      exact hany ⟨e, hmem, hcarries⟩
    rw [hzero]
    exact Nat.zero_le 1

theorem Handed.names (hsound : Sound (submissions D) (once D) post c) {p : Proof} {tx : SettlementTx}
    (h : Handed c p tx) : Names D p tx := by
  obtain ⟨⟨n, e⟩, hmem, htx, hproc⟩ := h
  obtain ⟨p', hproc', hmodest⟩ := modest_of_mem_log hsound hmem
  obtain rfl := Option.some.inj (hproc.symm.trans hproc')
  apply hmodest.2
  exact List.mem_filterMap.mpr ⟨e, mem_own.mpr hmem, htx⟩
end

/-- **Each proof hash is handed to `SendTransaction` at most once**, for a proof that a trusted key signed. -/
theorem one_settlement_per_proof (D : Deployment) (moves : List (Move Proof Choice Drift)) :
    (∀ h, ((submissions D).exec {} moves).shared.log.countP (·.2.carries h) ≤ 1) ∧
    (∀ e ∈ ((submissions D).exec {} moves).shared.log, ∀ tx, e.2.settlement? = some tx →
      ∃ p, Handed ((submissions D).exec {} moves) p tx ∧ CorrectlySigned D.env D.trusted p ∧
        tx.payLinkID = hexToHash p.payLinkID ∧ tx.proofHash = p.hash D.env) ∧
    ((∀ p q, p ∈ ((submissions D).exec {} moves).procs.map Prod.fst →
        q ∈ ((submissions D).exec {} moves).procs.map Prod.fst →
        CorrectlySigned D.env D.trusted p → CorrectlySigned D.env D.trusted q →
        p.rail = q.rail → p.txID = q.txID → hexToHash p.payLinkID = hexToHash q.payLinkID) →
      ∀ p q tx tx', Handed ((submissions D).exec {} moves) p tx →
        Handed ((submissions D).exec {} moves) q tx' → p.rail = q.rail → p.txID = q.txID →
        tx.payLinkID = tx'.payLinkID) := by
  have hsound := once_sound D moves
  have hsubmitted : ∀ p tx, Handed ((submissions D).exec {} moves) p tx →
      p ∈ ((submissions D).exec {} moves).procs.map Prod.fst := by
    intro p tx h
    obtain ⟨e, -, -, hproc⟩ := h
    obtain ⟨proc, hget, rfl⟩ := Option.map_eq_some_iff.mp hproc
    exact List.mem_map_of_mem (List.mem_of_getElem? hget)
  refine ⟨countP_carries_le hsound, ?_, ?_⟩
  · intro e hmem tx htx
    obtain ⟨p, hproc, -⟩ := modest_of_mem_log hsound hmem
    have hhanded : Handed ((submissions D).exec {} moves) p tx := ⟨e, hmem, htx, hproc⟩
    have hnames := hhanded.names hsound
    exact ⟨p, hhanded, hnames.signed, hnames.payLinkID, hnames.proofHash⟩
  · intro hone p q tx tx' hp hq hrail htx
    have hnames := hp.names hsound
    have hnames' := hq.names hsound
    calc tx.payLinkID = hexToHash p.payLinkID := hnames.payLinkID
      _ = hexToHash q.payLinkID :=
          hone p q (hsubmitted p tx hp) (hsubmitted q tx' hq) hnames.signed hnames'.signed hrail htx
      _ = tx'.payLinkID := hnames'.payLinkID.symm

/-- Two proofs of one rail transaction, both signed by the trusted key, for two PayLinks: both are settled. -/
theorem one_transaction_two_payLinks :
    Handed ((submissions Devnet.deployment).exec {} Devnet.twoPayLinksRun) Devnet.first.proof
        Devnet.firstSettlement ∧
      Handed ((submissions Devnet.deployment).exec {} Devnet.twoPayLinksRun) Devnet.other.proof
        Devnet.otherSettlement ∧
      CorrectlySigned Devnet.env Devnet.deployment.trusted Devnet.first.proof ∧
      CorrectlySigned Devnet.env Devnet.deployment.trusted Devnet.other.proof ∧
      Devnet.first.proof.rail = Devnet.other.proof.rail ∧
      Devnet.first.proof.txID = Devnet.other.proof.txID ∧
      Devnet.firstSettlement.payLinkID ≠ Devnet.otherSettlement.payLinkID := by
  decide +kernel

end LinkMint.Settle
