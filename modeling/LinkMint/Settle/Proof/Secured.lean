import LinkMint.Settle.Proof.Calls

/-!
# The contract of a delivery

What must have happened when a delivery is acknowledged (`Secured`, `Refused`), where it can go
wrong (`clear`, `Undisturbed`), and the rely–guarantee contract that carries the argument: the
proof rows say nothing that has not happened on the chain.
-/

namespace LinkMint.Settle

open LinkMint.Lib LinkMint.Chain

def Event.accepts (h : Hash) : Event → Bool
  | .sent tx accepted => accepted && tx.proofHash == h
  | _ => false

def Accepted (h : Hash) (s : World) : Prop := ∃ e ∈ s.log, e.2.accepts h = true

def ReportedUsed (h : Hash) (s : World) : Prop := ∃ e ∈ s.log, e.2 = .proofUsed h true

instance (h : Hash) (s : World) : Decidable (Accepted h s) :=
  inferInstanceAs (Decidable (∃ e ∈ s.log, e.2.accepts h = true))

instance (h : Hash) (s : World) : Decidable (ReportedUsed h s) :=
  inferInstanceAs (Decidable (∃ e ∈ s.log, e.2 = .proofUsed h true))

def Secured (h : Hash) (s : World) : Prop := Accepted h s ∨ ReportedUsed h s

instance (h : Hash) (s : World) : Decidable (Secured h s) :=
  inferInstanceAs (Decidable (Accepted h s ∨ ReportedUsed h s))

def ErrorCode.refusesProof : ErrorCode → Bool
  | .invalidPayload | .invalidProofShape | .invalidProofSignature => true
  | .payLinkNotFound | .payLinkNotPayable | .payLinkExpired | .proofAmountMismatch => true
  | .proofExists | .proofNotFound | .idempotentConflict => false
  | .chainUnavailable | .serviceNotReady | .internalError => false

def Event.refuses : Event → Bool
  | .answered (.envelope e) => e.code.refusesProof
  | _ => false

def Refused (n : Nat) (s : World) : Prop := ∃ e ∈ s.log, e.1 = n ∧ e.2.refuses = true

instance (n : Nat) (s : World) : Decidable (Refused n s) :=
  inferInstanceAs (Decidable (∃ e ∈ s.log, e.1 = n ∧ e.2.refuses = true))

def callbackHash (env : Env) (cb : Adapter.CallbackResult) (rec : Correlation) : Hash :=
  proofHash env (hexToHash rec.payLinkID) cb.txID rec.amount

def Safe (D : Deployment) (n : Nat) (cb : Adapter.CallbackResult) (s : World) : Prop :=
  ∀ rec, (n, .correlated rec) ∈ s.log → cb.amount = rec.amount → Secured (callbackHash D.env cb rec) s

def SafeFor (D : Deployment) (n : Nat) : Request → World → Prop
  | .callback cb, s => Safe D n cb s
  | .submit _ _, _ => True

def clear (s : World) : Op → Bool
  | .slotGet key attempt => (s.slots key).isNone && attempt == 0
  | .getByProofHash h => (s.proofs h).all fun rec => rec.status ≠ .received
  | _ => true

def Undisturbed (D : Deployment) (n : Nat) (r : Request) (s : World) (i : Op) : Choice → Prop
  | .ok => clear s i = true ∨ SafeFor D n r s
  | _ => True

def Kept (D : Deployment) (n : Nat) : Request → Returned → World → Prop
  | .callback cb, .callback (.ok _), s =>
    ∀ rec, (n, .correlated rec) ∈ s.log → cb.succeeded = true → cb.amount = rec.amount →
      Secured (callbackHash D.env cb rec) s ∨ Refused n s
  | _, _, _ => True

def Rows (s : World) : Prop :=
  ∀ h rec, s.proofs h = some rec →
    (rec.status = .broadcast → Accepted h s) ∧ (rec.status = .alreadySettled → ReportedUsed h s) ∧ rec.status ≠ .settled

def noLoss (D : Deployment) : Contract Op Request World Choice where
  inv := Rows
  guard := Undisturbed D
  rely := Others
  fresh n s := own n s = []
  always _ _ _ := True

theorem Accepted.mono {h : Hash} {s s' : World} (hs : Accepted h s) (hlog : s.log ⊆ s'.log) : Accepted h s' := by
  obtain ⟨e, he, htx⟩ := hs
  exact ⟨e, hlog he, htx⟩

theorem ReportedUsed.mono {h : Hash} {s s' : World} (hs : ReportedUsed h s) (hlog : s.log ⊆ s'.log) : ReportedUsed h s' := by
  obtain ⟨e, he, hused⟩ := hs
  exact ⟨e, hlog he, hused⟩

theorem Secured.mono {h : Hash} {s s' : World} (hs : Secured h s) (hlog : s.log ⊆ s'.log) : Secured h s' :=
  hs.imp (·.mono hlog) (·.mono hlog)

theorem Rows.congr {s s' : World} (hs : Rows s) (hproofs : s'.proofs = s.proofs) (hlog : s.log ⊆ s'.log) : Rows s' := by
  intro h rec hrow
  rw [hproofs] at hrow
  obtain ⟨hb, ha, hn⟩ := hs h rec hrow
  exact ⟨fun h => (hb h).mono hlog, fun h => (ha h).mono hlog, hn⟩

def Allowed (s : World) : Op → Prop
  | .insertProof rec =>
    rec.status = .received ∨ (rec.status = .alreadySettled ∧ ReportedUsed rec.proofHash s)
  | .markBroadcast h _ status => status = .broadcast ∧ Accepted h s
  | _ => True

theorem Rows.insert {s s' : World} {h : Hash} {rec : ProofRecord} (hs : Rows s)
    (hproofs : s'.proofs = Function.update s.proofs h (some rec)) (hlog : s.log ⊆ s'.log)
    (hrec : (rec.status = .broadcast → Accepted h s) ∧
      (rec.status = .alreadySettled → ReportedUsed h s) ∧ rec.status ≠ .settled) : Rows s' := by
  intro k row hrow
  by_cases hk : k = h
  · subst hk
    rw [hproofs, Function.update_self] at hrow
    cases hrow
    exact ⟨fun h => (hrec.1 h).mono hlog, fun h => (hrec.2.1 h).mono hlog, hrec.2.2⟩
  · rw [hproofs, Function.update_of_ne hk] at hrow
    obtain ⟨hb, ha, hn⟩ := hs k row hrow
    exact ⟨fun h => (hb h).mono hlog, fun h => (ha h).mono hlog, hn⟩

theorem Rows.touches {n : Nat} {i : Op} {s s' : World} (hs : Rows s) (h : Touches n s i s')
    (hallowed : Allowed s i) : Rows s' := by
  have hgrows := h.grows
  cases h with
  | nothing _ proofs => exact hs.congr proofs hgrows
  | correlated rec => exact hs.congr rfl hgrows
  | proofUsed b => exact hs.congr rfl hgrows
  | answered => exact hs.congr rfl hgrows
  | sent accepted => exact hs.congr rfl hgrows
  | stored _ _ proofs =>
    apply hs.insert proofs hgrows
    rcases hallowed with hr | ⟨ha, hused⟩
    · simp [hr]
    · exact ⟨by simp [ha], fun _ => hused, by simp [ha]⟩
  | marked _ _ _ proofs =>
    obtain ⟨rfl, haccepted⟩ := hallowed
    apply hs.insert proofs hgrows
    exact ⟨fun _ => haccepted, by simp, by simp⟩

theorem noLoss_stable (D : Deployment) : (noLoss D).Stable drift where
  refl := Others.refl
  trans _ _ _ _ h h' := h.trans h'
  fresh _ _ _ h h' := h'.own.trans h
  always _ _ _ _ _ _ := trivial
  drift s w h := by
    refine ⟨h.congr (drift_proofs s w) ?_, drift_others s w⟩
    rw [drift_log]
    exact List.Subset.refl _

/-! ## Specifications

Between reading its correlation and returning, a process keeps what it knows: nothing leaves the log and
no second correlation of its own enters it. -/

def Event.correlation? : Event → Option Correlation
  | .correlated rec => some rec
  | _ => none

def seen (n : Nat) (s : World) : List Correlation := (own n s).filterMap Event.correlation?

theorem mem_seen {n : Nat} {s : World} {rec : Correlation} : rec ∈ seen n s ↔ (n, .correlated rec) ∈ s.log := by
  rw [← mem_own]
  constructor
  · intro h
    obtain ⟨e, he, hrec⟩ := List.mem_filterMap.mp h
    cases e with
    | correlated rec' =>
      cases hrec
      exact he
    | _ => cases hrec
  · intro h
    exact List.mem_filterMap.mpr ⟨_, h, rfl⟩

instance (D : Deployment) (n : Nat) (r : Request) (s : World) : Decidable (SafeFor D n r s) :=
  match r with
  | .submit _ _ => .isTrue trivial
  | .callback cb =>
    decidable_of_iff
      (∀ rec ∈ seen n s, cb.amount = rec.amount → Secured (callbackHash D.env cb rec) s)
      (by simp only [SafeFor, Safe, mem_seen])

instance (D : Deployment) (n : Nat) (r : Request) (s : World) (i : Op) (c : Choice) :
    Decidable ((noLoss D).guard n r s i c) :=
  match c with
  | .ok => inferInstanceAs (Decidable (clear s i = true ∨ SafeFor D n r s))
  | .failed _ | .lost _ | .time _ | .text _ | .delivered _ => .isTrue trivial
  | .used _ | .payLink _ | .nonce _ | .sent _ _ => .isTrue trivial

structure Since (n : Nat) (s s' : World) : Prop where
  grows : s.log ⊆ s'.log
  seen : seen n s' = seen n s

instance (n : Nat) : Std.Refl (Since n) := ⟨fun _ => ⟨List.Subset.refl _, rfl⟩⟩

instance (n : Nat) : IsTrans World (Since n) :=
  ⟨fun _ _ _ h h' => ⟨List.Subset.trans h.grows h'.grows, h'.seen.trans h.seen⟩⟩

theorem Others.since {n : Nat} {s s' : World} (h : Others n s s') : Since n s s' :=
  ⟨h.grows, by simp only [Settle.seen, h.own]⟩

theorem seen_cons {n : Nat} {s s' : World} {e : Event} (h : s'.log = (n, e) :: s.log)
    (he : e.correlation? = none) : seen n s' = seen n s := by
  simp only [seen, own_cons h, if_pos]
  exact List.filterMap_cons_none he

def Op.correlates : Op → Bool
  | .correlationGet _ => true
  | _ => false

theorem Touches.since {n : Nat} {i : Op} {s s' : World} (h : Touches n s i s')
    (hi : i.correlates = false) : Since n s s' := by
  refine ⟨h.grows, ?_⟩
  cases h with
  | nothing log _ => simp only [seen, own_congr log]
  | correlated rec => cases hi
  | proofUsed b => exact seen_cons rfl rfl
  | answered => exact seen_cons rfl rfl
  | sent accepted => exact seen_cons rfl rfl
  | stored _ log _ =>
    rcases log with hlog | hlog
    · simp only [seen, own_congr hlog]
    · exact seen_cons hlog rfl
  | marked _ _ log _ => simp only [seen, own_congr log]

theorem SafeFor.mono {D : Deployment} {n : Nat} {r : Request} {s s' : World} (h : SafeFor D n r s)
    (hs : Since n s s') : SafeFor D n r s' := by
  cases r with
  | submit key raw => trivial
  | callback cb =>
    intro rec hrec hamount
    rw [← mem_seen, hs.seen, mem_seen] at hrec
    exact (h rec hrec hamount).mono hs.grows

section Specs

variable {D : Deployment} {n : Nat} {r : Request} {s : World}

abbrev Spec (D : Deployment) (n : Nat) (r : Request) {α : Type} (p : Proc α) (s : World)
    (post : α → World → Prop) : Prop :=
  Ensures serve (noLoss D) n r (Since n) p s post

theorem spec_op {i : Op} {post : i.Answer → World → Prop} (hi : i.correlates = false)
    (hallowed : ∀ s₁, Since n s s₁ → Allowed s₁ i)
    (hpost : ∀ s₁ c a s₂, Since n s s₁ → Rows s₁ → Undisturbed D n r s₁ i c →
      serve n r s₁ i c = some (a, s₂) → post a s₂) :
    Spec D n r (Prog.op i) s post := by
  apply Ensures.op (fun _ h => Others.since h)
  intro s₁ hs hrows c hguard a s₂ hserve
  have htouches := serve_cases hserve
  exact ⟨hrows.touches htouches (hallowed s₁ hs), fun _ hm => htouches.others hm, trivial,
    htouches.since hi, hpost s₁ c a s₂ hs hrows hguard hserve⟩

theorem spec_call {α : Type} {i : Op} {f : i.Answer → Proc α} {post : α → World → Prop}
    (hi : i.correlates = false) (hallowed : ∀ s₁, Since n s s₁ → Allowed s₁ i)
    (hf : ∀ a s', Since n s s' → Spec D n r (f a) s' post) : Spec D n r (Prog.op i >>= f) s post := by
  have hop : Spec D n r (Prog.op i) s fun _ _ => True := spec_op hi hallowed fun _ _ _ _ _ _ _ _ => trivial
  exact Ensures.bind hop fun a s' hs _ => hf a s' hs

theorem spec_ret {α : Type} {a : α} {post : α → World → Prop} (h : post a s) : Spec D n r (pure a) s post :=
  Ensures.ret h
end Specs
end LinkMint.Settle
