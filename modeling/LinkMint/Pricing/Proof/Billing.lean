import LinkMint.Pricing.Proof.Tables

/-!
# Every accrual is billed once

The two requests keep `Books` as long as their commits are `Timely`, and a run that has returned
is on record with the table it read.
-/

namespace LinkMint.Pricing

open LinkMint.Lib

variable {D : Deployment}

def Choice.takesEffect : Choice → Bool
  | .ok | .lost _ => true
  | .failed _ | .uuid _ => false

structure Clear (n : Nat) (w : World) : Prop where
  session : w.sessions n = {}
  accruals : own n w.accruals = []
  invoices : own n w.invoices = []

def TimelyCommit (n : Nat) (w : World) (i : Op) (c : Choice) : Prop :=
  i = .commit → c.takesEffect = true → Timely n w

instance (n : Nat) (w : World) : Decidable (Timely n w) :=
  decidable_of_iff (_ ∧ _) ⟨fun h => ⟨h.1, h.2⟩, fun h => ⟨h.accruals, h.invoices⟩⟩

instance (n : Nat) (w : World) (i : Op) (c : Choice) : Decidable (TimelyCommit n w i c) :=
  inferInstanceAs (Decidable (_ → _ → _))

def contract : Contract Op Request World Choice where
  inv := Books
  guard n _ w i c := TimelyCommit n w i c
  rely := Rely
  fresh n w := Clear n w ∧ ∀ sc, (n, sc) ∉ w.runs
  always _ _ _ := True

def Recorded (n : Nat) (q : Request) (a : Reply) (w : World) : Prop :=
  ∀ sc g, q = .generateForPeriod sc → a = .generated (.ok g) → ∃ scan, scan.scope = sc ∧ (n, scan) ∈ w.runs

theorem contract_stable : contract.Stable (fun (_ : World) (w : Empty) => nomatch w) where
  refl := Rely.refl
  trans _ _ _ _ := Rely.trans
  fresh n w w' h hrely := by
    refine ⟨⟨?_, ?_, ?_⟩, fun sc hmem => h.2 sc ((hrely.runs sc).mp hmem)⟩
    · rw [hrely.session]
      exact h.1.session
    · rw [hrely.accruals]
      exact h.1.accruals
    · rw [hrely.invoices]
      exact h.1.invoices
  always _ _ _ _ _ _ := trivial
  drift _ w := nomatch w

theorem Recorded.stable {n : Nat} {q : Request} {a : Reply} {w w' : World} (h : Recorded n q a w)
    (hrely : Rely n w w') : Recorded n q a w' := by
  intro sc g hq ha
  obtain ⟨scan, hscope, hmem⟩ := h sc g hq ha
  exact ⟨scan, hscope, (hrely.runs scan).mpr hmem⟩

def OnOk {ε α : Type} (Q : α → World → Prop) (a : Except ε α) (w : World) : Prop := ∀ x, a = .ok x → Q x w

theorem OnOk.error {ε α : Type} {Q : α → World → Prop} {e : ε} {w : World} : OnOk Q (.error e) w := fun _ h => nomatch h

theorem OnOk.intro {ε α : Type} {Q : α → World → Prop} {x : α} {w : World} (h : Q x w) : OnOk Q (.ok x : Except ε α) w := by
  intro y hy
  cases hy
  exact h

section Calls

variable {n : Nat} {q : Request} {w : World}

theorem statement_cases {α : Type} {w₁ w₂ : World} {run : Option (Except String α × World)} {c : Choice}
    {a : Except String α} (h : statement n w₁ run c = some (a, w₂)) :
    (∃ m, a = .error m ∧ w₂ = w₁.rollback n) ∨ ∃ x, a = .ok x ∧ run = some (.ok x, w₂) := by
  unfold statement at h
  split at h
  · split at h
    · cases h
      exact .inl ⟨_, rfl, rfl⟩
    · next hnot =>
      cases a with
      | error m => exact absurd h (hnot m w₂)
      | ok x => exact .inr ⟨x, rfl, h⟩
  · cases h
    exact .inl ⟨_, rfl, rfl⟩
  · cases h
  · cases h

theorem served_statement {α : Type} {w₁ w₂ : World} {run : Option (Except String α × World)} {c : Choice}
    {a : Except String α} {Q : α → World → Prop} (hw : Books w₁) (h : statement n w₁ run c = some (a, w₂))
    (hok : ∀ x w₂, run = some (.ok x, w₂) → Books w₂ ∧ (∀ m, m ≠ n → Rely m w₁ w₂) ∧ Q x w₂) :
    Books w₂ ∧ (∀ m, m ≠ n → Rely m w₁ w₂) ∧ True ∧ OnOk Q a w₂ := by
  rcases statement_cases h with ⟨m, rfl, rfl⟩ | ⟨x, rfl, hrun⟩
  · exact ⟨hw.rollback n, fun m hm => rely_rollback hm, trivial, .error⟩
  · obtain ⟨h₁, h₂, h₃⟩ := hok x w₂ hrun
    exact ⟨h₁, h₂, trivial, .intro h₃⟩

theorem served_read {α : Type} {w₁ w₂ : World} {x : α} {c : Choice} {a : Except String α}
    {Q : α → World → Prop} (hw : Books w₁) (h : statement n w₁ (some (.ok x, w₁)) c = some (a, w₂))
    (hQ : Q x w₁) : Books w₂ ∧ (∀ m, m ≠ n → Rely m w₁ w₂) ∧ True ∧ OnOk Q a w₂ := by
  refine served_statement hw h fun y w₂ hrun => ?_
  cases hrun
  exact ⟨hw, fun m _ => Rely.refl m w₁, hQ⟩

theorem conflict_free {α : Type} {rows : List (Stored α)} {same : α → Bool}
    (h : conflict n rows same = .free) : ∀ x ∈ rows, same x.row = false := by
  unfold conflict at h
  split at h
  · cases h
  · split at h
    · cases h
    · next hany =>
      simpa using hany

theorem holds_sequence {p : Proc (Except String Unit)} {ps : List (Proc (Except String Unit))} {Q : Unit → World → Prop}
    (h : Holds serve contract n q p
      (OnOk fun _ w => Holds serve contract n q (sequence ps) (OnOk Q) w) w) :
    Holds serve contract n q (sequence (p :: ps)) (OnOk Q) w := by
  refine h.bind fun a w hmid => ?_
  cases a with
  | error m => exact OnOk.error
  | ok u => exact hmid u rfl
end Calls

section Run

variable {n : Nat} {q : Request} {w : World} {sc : Scan} {invs : List Invoice}

theorem Prepared.stable {w' : World} (h : Prepared n w sc invs) (hrely : Rely n w w') : Prepared n w' sc invs where
  scan := by rw [hrely.session, h.scan]
  stamps := by rw [hrely.session, h.stamps]
  accruals := by rw [hrely.accruals, h.accruals]
  invoices := by rw [hrely.invoices, h.invoices]
  made := h.made

def Covered (n : Nat) (w : World) (sc : Scan) (keys : List GroupKey) : Prop :=
  ∀ k ∈ keys, ∃ inv ∈ visible n w.invoices, inv.merchant = k.1 ∧ inv.period = sc.scope.period

variable {keys : List GroupKey}

theorem Covered.stable {w' : World} (h : Covered n w sc keys) (hrely : Rely n w w') : Covered n w' sc keys := by
  intro k hk
  obtain ⟨inv, hinv, hkey⟩ := h k hk
  refine ⟨inv, ?_, hkey⟩
  rw [mem_visible] at hinv ⊢
  rcases hinv with hinv | hinv
  · exact .inl (hrely.billed inv hinv)
  · exact .inr (by rwa [hrely.invoices])

structure Inserted (n : Nat) (w : World) (sc : Scan) (invs : List Invoice) (inv : Invoice) : Prop where
  scan : (w.sessions n).scan = some sc
  stamps : (w.sessions n).stamps = invs.flatMap fun inv => (sc.group inv).map fun a => (a.id, inv.id)
  accruals : own n w.accruals = []
  invoices : own n w.invoices = invs ++ [inv]
  made : ∀ inv' ∈ invs ++ [inv], sc.group inv' ≠ [] ∧
    inv' = invoiceOf inv'.id sc.scope.period (inv'.merchant, inv'.currency) (sc.group inv')

theorem holds_insertInvoice {k : GroupKey} (id : UUID) (hne : (sc.rows.filter fun a => a.groupKey = k) ≠ [])
    (hp : Prepared n w sc invs) (hc : Covered n w sc keys) : Holds serve contract n q
      (Call.insertInvoice (invoiceOf id sc.scope.period k (sc.rows.filter fun a => a.groupKey = k)))
      (OnOk fun _ w => Inserted n w sc invs
          (invoiceOf id sc.scope.period k (sc.rows.filter fun a => a.groupKey = k)) ∧
        Covered n w sc (keys ++ [k])) w := by
  intro w₁ hrely hw c _ a w₂ hserve
  refine served_statement hw hserve fun x w₂ hrun => ?_
  have hp₁ := hp.stable hrely
  have hc₁ := hc.stable hrely
  simp only [serveInsertInvoice] at hrun
  split at hrun
  · cases hrun
  · split at hrun
    · cases hrun
    · cases hrun
    · next hfree =>
      cases hrun
      have hnew := conflict_free hfree
      refine ⟨hw.insertInvoice n fun x hx => ?_, fun m hm => rely_insertInvoice hm _,
        ⟨hp₁.scan, hp₁.stamps, hp₁.accruals, ?_, ?_⟩, ?_⟩
      · have hx := hnew x hx
        simp only [Bool.or_eq_false_iff, decide_eq_false_iff_not, Bool.and_eq_false_iff] at hx
        exact ⟨hx.1, fun hkey => hx.2.elim (· hkey.1) (· hkey.2)⟩
      · rw [own_append_self, hp₁.invoices]
      · intro inv hinv
        rcases List.mem_append.mp hinv with hinv | hinv
        · exact hp₁.made inv hinv
        · rw [List.mem_singleton] at hinv
          subst hinv
          exact ⟨hne, rfl⟩
      · intro k' hk'
        rcases List.mem_append.mp hk' with hk' | hk'
        · obtain ⟨inv, hinv, hkey⟩ := hc₁ k' hk'
          refine ⟨inv, ?_, hkey⟩
          rw [mem_visible] at hinv ⊢
          dsimp only
          rw [committed_append_own, own_append_self]
          exact hinv.imp_right (List.mem_append_left _)
        · rw [List.mem_singleton] at hk'
          subst hk'
          refine ⟨invoiceOf id sc.scope.period k' (sc.rows.filter fun a => a.groupKey = k'), mem_visible.mpr (.inr ?_), rfl, rfl⟩
          dsimp only
          rw [own_append_self]
          exact List.mem_append_right _ List.mem_cons_self

theorem holds_markInvoiced {inv : Invoice} (hi : Inserted n w sc invs inv) (hc : Covered n w sc keys) :
    Holds serve contract n q (Call.markInvoiced ((sc.group inv).map (·.id)) inv.id)
      (OnOk fun _ w => Prepared n w sc (invs ++ [inv]) ∧ Covered n w sc keys) w := by
  intro w₁ hrely hw c _ a w₂ hserve
  refine served_statement hw hserve fun x w₂ hrun => ?_
  have hc₁ := hc.stable hrely
  simp only [serveMark] at hrun
  split at hrun
  · cases hrun
  · cases hrun
    refine ⟨hw.setSession n fun sc' hsc' => hw.scans n sc' hsc', fun m hm => rely_setSession hm _,
      ⟨?_, ?_, ?_, ?_, hi.made⟩, hc₁⟩
    · simp only [World.setSession, Function.update_self, hrely.session, hi.scan]
    · simp only [World.setSession, Function.update_self, hrely.session, hi.stamps, List.flatMap_append,
        List.flatMap_cons, List.flatMap_nil, List.append_nil, List.map_map]
      rfl
    · exact hrely.accruals.trans hi.accruals
    · exact hrely.invoices.trans hi.invoices

theorem holds_effect (e : Effect) (inv : Invoice) (hp : Prepared n w sc invs) (hc : Covered n w sc keys) :
    Holds serve contract n q (Call.effect e inv) (OnOk fun _ w => Prepared n w sc invs ∧ Covered n w sc keys) w := by
  intro w₁ hrely hw c _ a w₂ hserve
  exact served_read (Q := fun _ w => Prepared n w sc invs ∧ Covered n w sc keys) hw hserve
    ⟨hp.stable hrely, hc.stable hrely⟩

theorem holds_effects {inv : Invoice} (es : List Effect) (hp : Prepared n w sc invs) (hc : Covered n w sc keys) :
    Holds serve contract n q (sequence (es.map fun e => Call.effect e inv))
      (OnOk fun _ w => Prepared n w sc invs ∧ Covered n w sc keys) w := by
  induction es generalizing w with
  | nil => exact OnOk.intro ⟨hp, hc⟩
  | cons e es ih =>
    refine holds_sequence ((holds_effect e inv hp hc).mono fun a w hmid => ?_)
    intro u hu
    exact ih (hmid u hu).1 (hmid u hu).2

theorem holds_invoiceForPeriod {k : GroupKey} (hp : Prepared n w sc invs) (hc : Covered n w sc keys) :
    Holds serve contract n q (Call.invoiceForPeriod k.1 sc.scope.period)
      (OnOk fun found w => Prepared n w sc invs ∧ Covered n w sc keys ∧
        (found.isSome = true → Covered n w sc (keys ++ [k]))) w := by
  intro w₁ hrely hw c _ a w₂ hserve
  have hc₁ := hc.stable hrely
  refine served_read (Q := fun (found : Option Invoice) w => Prepared n w sc invs ∧ Covered n w sc keys ∧
    (found.isSome = true → Covered n w sc (keys ++ [k]))) hw hserve ⟨hp.stable hrely, hc₁, fun hsome => ?_⟩
  obtain ⟨inv, hfind⟩ := Option.isSome_iff_exists.mp hsome
  intro k' hk'
  rcases List.mem_append.mp hk' with hk' | hk'
  · exact hc₁ k' hk'
  · rw [List.mem_singleton] at hk'
    subst hk'
    have hkey := List.find?_some hfind
    simp only [Bool.and_eq_true, decide_eq_true_eq] at hkey
    exact ⟨inv, List.mem_of_find?_eq_some hfind, hkey⟩

theorem holds_newUUID (hp : Prepared n w sc invs) (hc : Covered n w sc keys) : Holds serve contract n q Call.newUUID
      (fun _ w => Prepared n w sc invs ∧ Covered n w sc keys) w := by
  intro w₁ hrely hw c _ a w₂ hserve
  cases c with
  | uuid id =>
    cases hserve
    exact ⟨hw, fun m _ => Rely.refl m w₁, trivial, hp.stable hrely, hc.stable hrely⟩
  | ok => cases hserve
  | failed m => cases hserve
  | lost m => cases hserve

theorem holds_writes {k : GroupKey} (id : UUID) (es : List Effect) (hne : (sc.rows.filter fun a => a.groupKey = k) ≠ [])
    (hp : Prepared n w sc invs) (hc : Covered n w sc keys) : let inv := invoiceOf id sc.scope.period k (sc.rows.filter fun a => a.groupKey = k)
    Holds serve contract n q
      (sequence (Call.insertInvoice inv :: Call.markInvoiced ((sc.group inv).map (·.id)) inv.id ::
        es.map fun e => Call.effect e inv))
      (OnOk fun _ w => (∃ invs, Prepared n w sc invs) ∧ Covered n w sc (keys ++ [k])) w := by
  intro inv
  refine holds_sequence ((holds_insertInvoice id hne hp hc).mono fun a w hins => ?_)
  intro u hu
  obtain ⟨hi, hc⟩ := hins u hu
  refine holds_sequence ((holds_markInvoiced hi hc).mono fun a w hmark => ?_)
  intro u hu
  obtain ⟨hp, hc⟩ := hmark u hu
  refine (holds_effects es hp hc).mono fun a w heff => ?_
  intro u hu
  exact ⟨⟨_, (heff u hu).1⟩, (heff u hu).2⟩

theorem holds_billGroup {k : GroupKey} (hne : (sc.rows.filter fun a => a.groupKey = k) ≠ []) (hp : Prepared n w sc invs)
    (hc : Covered n w sc keys) : Holds serve contract n q
      (billGroup D sc.scope.period k (sc.rows.filter fun a => a.groupKey = k))
      (OnOk fun _ w => (∃ invs, Prepared n w sc invs) ∧ Covered n w sc (keys ++ [k])) w := by
  refine (holds_invoiceForPeriod hp hc).bind fun found w hfound => ?_
  rcases found with m | _ | inv
  · exact OnOk.error
  · obtain ⟨hp, hc, -⟩ := hfound none rfl
    refine (holds_newUUID hp hc).bind fun id w hmid => ?_
    -- the steps after the two writes are the same list of effects, with or without the ledger
    have hsteps : ∀ inv : Invoice, (if D.ledgerPosting then [Call.effect .postLedger inv] else []) ++
        [Call.effect .addEvent inv, Call.effect .publish inv] =
        ((if D.ledgerPosting then [Effect.postLedger] else []) ++ [Effect.addEvent, Effect.publish]).map
          fun e => Call.effect e inv := by
      intro inv
      cases D.ledgerPosting <;> rfl
    dsimp only
    rw [List.append_assoc, hsteps]
    refine (holds_writes id _ hne hmid.1 hmid.2).bind fun a w hdone => ?_
    cases a with
    | error m => exact OnOk.error
    | ok u => exact OnOk.intro (hdone u rfl)
  · obtain ⟨hp, -, hc⟩ := hfound (some inv) rfl
    exact OnOk.intro ⟨⟨invs, hp⟩, hc rfl⟩

theorem holds_billGroups {gs : List (GroupKey × List Accrual)} {generated : List GeneratedInvoice} {skipped : Nat}
    (hgs : ∀ g ∈ gs, g.2 = (sc.rows.filter fun a => a.groupKey = g.1) ∧ g.2 ≠ []) (hp : Prepared n w sc invs)
    (hc : Covered n w sc keys) : Holds serve contract n q (billGroups D sc.scope.period generated skipped gs)
      (OnOk fun _ w => (∃ invs, Prepared n w sc invs) ∧ Covered n w sc (keys ++ gs.map Prod.fst)) w := by
  induction gs generalizing w invs keys generated skipped with
  | nil =>
    refine OnOk.intro ⟨⟨invs, hp⟩, ?_⟩
    rw [List.map_nil, List.append_nil]
    exact hc
  | cons g gs ih =>
    obtain ⟨k, grp⟩ := g
    have hgrp : grp = sc.rows.filter fun a => a.groupKey = k := (hgs (k, grp) List.mem_cons_self).1
    have hne : grp ≠ [] := (hgs (k, grp) List.mem_cons_self).2
    have hrest : ∀ g ∈ gs, g.2 = (sc.rows.filter fun a => a.groupKey = g.1) ∧ g.2 ≠ [] :=
      fun g hg => hgs g (List.mem_cons_of_mem _ hg)
    subst hgrp
    rw [List.map_cons, List.append_cons]
    refine (holds_billGroup hne hp hc).bind fun a w hdone => ?_
    rcases a with m | _ | g
    · exact OnOk.error
    · obtain ⟨⟨invs, hp⟩, hc⟩ := hdone none rfl
      exact ih hrest hp hc
    · obtain ⟨⟨invs, hp⟩, hc⟩ := hdone (some g) rfl
      exact ih hrest hp hc

theorem mem_groups {rows : List Accrual} {g : GroupKey × List Accrual} (h : g ∈ groups rows) :
    g.2 = (rows.filter fun a => a.groupKey = g.1) ∧ g.2 ≠ [] := by
  obtain ⟨k, hk, rfl⟩ := List.mem_map.mp h
  obtain ⟨a, ha, rfl⟩ := List.mem_map.mp (List.mem_eraseDups.mp hk)
  exact ⟨rfl, List.ne_nil_of_mem (List.mem_filter.mpr ⟨ha, by simp⟩)⟩

theorem groupKey_mem_groups {rows : List Accrual} {a : Accrual} (h : a ∈ rows) : a.groupKey ∈ (groups rows).map Prod.fst := by
  unfold groups
  rw [List.map_map]
  exact List.mem_map.mpr ⟨a.groupKey, List.mem_eraseDups.mpr (List.mem_map_of_mem h), rfl⟩
end Run

section Requests

variable {n : Nat} {q : Request} {w : World}

theorem Clear.stable {w' : World} (h : Clear n w) (hrely : Rely n w w') : Clear n w' where
  session := hrely.session.trans h.session
  accruals := hrely.accruals.trans h.accruals
  invoices := hrely.invoices.trans h.invoices

theorem holds_commit {Q : World → Prop}
    (h : ∀ w₁, Rely n w w₁ → Books w₁ → Timely n w₁ → Books (w₁.commit n) ∧ Q (w₁.commit n)) :
    Holds serve contract n q Call.commit (OnOk fun _ => Q) w := by
  intro w₁ hrely hw c hguard a w₂ hserve
  cases c with
  | ok =>
    cases hserve
    obtain ⟨hbooks, hQ⟩ := h w₁ hrely hw (hguard rfl rfl)
    exact ⟨hbooks, fun m hm => rely_commit hm, trivial, OnOk.intro hQ⟩
  | lost m =>
    cases hserve
    obtain ⟨hbooks, -⟩ := h w₁ hrely hw (hguard rfl rfl)
    exact ⟨hbooks, fun m hm => rely_commit hm, trivial, OnOk.error⟩
  | failed m =>
    cases hserve
    exact ⟨hw.rollback n, fun m hm => rely_rollback hm, trivial, OnOk.error⟩
  | uuid id => cases hserve

structure Pending (n : Nat) (w : World) : Prop where
  session : w.sessions n = {}
  accruals : ∀ a ∈ own n w.accruals, ∀ b ∈ own n w.accruals, a = b
  invoices : own n w.invoices = []

theorem Pending.stable {w' : World} (h : Pending n w) (hrely : Rely n w w') : Pending n w' where
  session := hrely.session.trans h.session
  accruals := by
    rw [hrely.accruals]
    exact h.accruals
  invoices := hrely.invoices.trans h.invoices

theorem Clear.pending (h : Clear n w) : Pending n w where
  session := h.session
  accruals a ha := by
    rw [h.accruals] at ha
    cases ha
  invoices := h.invoices

theorem holds_insertAccrual (a : NewAccrual) (h : Clear n w) :
    Holds serve contract n q (Call.insertAccrual a) (OnOk fun _ => Pending n) w := by
  intro w₁ hrely hw c _ r w₂ hserve
  have h₁ := h.stable hrely
  refine served_statement (Q := fun _ => Pending n) hw hserve fun x w₂ hrun => ?_
  simp only [serveInsertAccrual] at hrun
  split at hrun
  · cases hrun
  · split at hrun
    · cases hrun
      exact ⟨hw, fun m _ => Rely.refl m w₁, h₁.pending⟩
    · cases hrun
    · cases hrun
      refine ⟨hw.insertAccrual n rfl rfl, fun m hm => rely_insertAccrual hm _ _, h₁.session, ?_, h₁.invoices⟩
      dsimp only
      rw [own_append_self, h₁.accruals]
      intro a ha b hb
      rw [List.nil_append, List.mem_singleton] at ha hb
      rw [ha, hb]

theorem holds_accrualID (merchant : UUID) (sourceRef : String) (h : Pending n w) :
    Holds serve contract n q (Call.accrualID merchant sourceRef) (OnOk fun _ => Pending n) w := by
  intro w₁ hrely hw c _ r w₂ hserve
  exact served_read (Q := fun _ => Pending n) hw hserve (h.stable hrely)

theorem holds_commitAs (r : AccrualResult) (h : Pending n w) :
    Holds serve contract n q (recordAccrual.commitAs r) (fun _ _ => True) w := by
  refine Holds.bind (holds_commit (Q := fun _ => True) fun w₁ hrely hw ht => ?_) fun a w _ => ?_
  · have h₁ := h.stable hrely
    exact ⟨hw.commitAccrual ht h₁.session h₁.accruals h₁.invoices, trivial⟩
  · cases a <;> trivial

theorem holds_recordAccrual (input : AccrualInput) (h : Clear n w) :
    Holds serve contract n q (recordAccrual D input) (fun _ _ => True) w := by
  refine (holds_insertAccrual _ h).bind fun a w hins => ?_
  rcases a with m | _ | id
  · trivial
  · refine (holds_accrualID _ _ (hins none rfl)).bind fun a w hid => ?_
    rcases a with m | _ | id
    · trivial
    · trivial
    · exact holds_commitAs _ (hid (some id) rfl)
  · exact holds_commitAs _ (hins (some id) rfl)

theorem holds_unbilled (sc : Scope) (h : Clear n w) : Holds serve contract n q (Call.unbilled sc)
      (OnOk fun rows w => ∃ scan : Scan, scan.scope = sc ∧ rows = scan.rows ∧ Prepared n w scan []) w := by
  intro w₁ hrely hw c _ a w₂ hserve
  have h₁ := h.stable hrely
  simp only [serve] at hserve
  refine served_statement (Q := fun rows w => ∃ scan : Scan, scan.scope = sc ∧ rows = scan.rows ∧
    Prepared n w scan []) hw hserve fun rows w₂ hrun => ?_
  cases hrun
  refine ⟨hw.setSession n fun scan hscan => ?_, fun m hm => rely_setSession hm _, _, rfl, rfl,
    ⟨?_, ?_, h₁.accruals, h₁.invoices, ?_⟩⟩
  · cases hscan
    exact ⟨hw.nodup_ids_committed, fun a ha => ⟨a, ha, Later.refl a⟩⟩
  · simp only [World.setSession, Function.update_self]
  · simp only [World.setSession, Function.update_self, h₁.session, List.flatMap_nil]
  · intro inv hinv
    cases hinv

theorem holds_generateForPeriod (sc : Scope) (h : Clear n w) : Holds serve contract n q (generateForPeriod D sc)
      (OnOk fun _ w => ∃ scan, scan.scope = sc ∧ (n, scan) ∈ w.runs) w := by
  unfold generateForPeriod
  split
  · exact OnOk.error
  · refine (holds_unbilled sc h).bind fun a w hread => ?_
    cases a with
    | error m => exact OnOk.error
    | ok rows =>
      obtain ⟨scan, rfl, rfl, hp⟩ := hread rows rfl
      have hnone : Covered n w scan [] := fun k hk => nomatch hk
      refine (holds_billGroups (fun g hg => mem_groups hg) hp hnone).bind fun a w hloop => ?_
      rcases a with m | ⟨generated, skipped⟩
      · exact OnOk.error
      · obtain ⟨⟨invs, hp⟩, hc⟩ := hloop _ rfl
        refine Holds.bind (holds_commit (Q := fun w => (n, scan) ∈ w.runs) fun w₁ hrely hw ht => ?_)
          fun a w hcommit => ?_
        · have hp₁ := hp.stable hrely
          refine ⟨hw.commitRun hp₁ ht fun a ha => ?_, ?_⟩
          · obtain ⟨inv, hinv, hmerchant, hperiod⟩ := hc.stable hrely a.groupKey
              (List.mem_append_right _ (groupKey_mem_groups ha))
            exact ⟨inv, hinv, hmerchant, hperiod.trans (period_of_covers (mem_rows.mp ha).2.1).symm⟩
          · simp [World.commit, hp₁.scan]
        · cases a with
          | error m => exact OnOk.error
          | ok u => exact OnOk.intro ⟨scan, rfl, hcommit u rfl⟩

theorem holds_handle (h : Clear n w) : Holds serve contract n q (handle D q) (Recorded n q) w := by
  cases q with
  | recordAccrual input =>
    refine (holds_recordAccrual input h).bind fun a w _ => ?_
    intro sc g hq
    cases hq
  | generateForPeriod sc =>
    refine (holds_generateForPeriod sc h).bind fun a w hdone => ?_
    intro sc' g hq ha
    cases hq
    cases ha
    exact hdone g rfl
end Requests

theorem sound {moves : List (Move Request Choice Empty)}
    (timely : ∀ e ∈ trace (system D).step { shared := {} } moves, Allowed (fun n _ => TimelyCommit n) e.1 e.2) :
    Sound (system D) contract Recorded ((system D).exec {} moves) := by
  refine (system D).sound contract contract_stable (fun n q a w w' h hrely => h.stable hrely)
    (fun n q w _ hfresh => ⟨trivial, holds_handle hfresh.1⟩) Books.init
    (fun n => ⟨⟨rfl, rfl, rfl⟩, fun sc h => nomatch h⟩) moves fun e he => ?_
  have h := timely e he
  cases e with
  | mk c m => cases m <;> exact h

structure Read (N : Nat) (ids : List Nat) (w : World) : Prop where
  kept : ids ⊆ (committed w.accruals).map (·.id)
  scans : ∀ m sc, N ≤ m → (w.sessions m).scan = some sc → ids ⊆ sc.table.map (·.id)
  runs : ∀ m sc, N ≤ m → (m, sc) ∈ w.runs → ids ⊆ sc.table.map (·.id)

namespace Read
variable {N : Nat} {ids : List Nat} {n : Nat} {w : World}

theorem rollback (h : Read N ids w) (n : Nat) : Read N ids (w.rollback n) where
  kept := by
    simp only [World.rollback, committed_rollback]
    exact h.kept
  scans m sc hm hsc := by
    by_cases hmn : m = n
    · subst hmn
      simp [World.rollback] at hsc
    · simp only [World.rollback, Function.update_of_ne hmn] at hsc
      exact h.scans m sc hm hsc
  runs := h.runs

theorem commit (h : Read N ids w) (n : Nat) : Read N ids (w.commit n) where
  kept := by
    intro i hi
    obtain ⟨a, ha, rfl⟩ := List.mem_map.mp (h.kept hi)
    refine List.mem_map.mpr ⟨stamp (w.sessions n).stamps a, ?_, by rw [fields_stamp]⟩
    rw [mem_committed] at ha ⊢
    exact List.mem_map.mpr ⟨_, ha, by simp [release]⟩
  scans m sc hm hsc := h.scans m sc hm (scan_commit hsc)
  runs m sc hm hmem := by
    rcases List.mem_append.mp hmem with hmem | hmem
    · exact h.runs m sc hm hmem
    · rw [Option.mem_toList, Option.map_eq_some_iff] at hmem
      obtain ⟨sc', hsc', heq⟩ := hmem
      cases heq
      exact h.scans n sc hm hsc'

theorem statement {α : Type} {w₁ w₂ : World} {run : Option (Except String α × World)} {c : Choice}
    {a : Except String α} (h : Read N ids w₁) (hs : statement n w₁ run c = some (a, w₂))
    (hok : ∀ x, run = some (.ok x, w₂) → Read N ids w₂) : Read N ids w₂ := by
  rcases statement_cases hs with ⟨m, rfl, rfl⟩ | ⟨x, rfl, hrun⟩
  · exact h.rollback n
  · exact hok x hrun

theorem serve (q : Request) {i : Op} {c : Choice} {a : i.Answer} {w' : World} (h : Read N ids w)
    (hs : Pricing.serve n q w i c = some (a, w')) : Read N ids w' := by
  cases i with
  | insertAccrual b =>
    refine h.statement hs fun x hrun => ?_
    simp only [serveInsertAccrual] at hrun
    split at hrun
    · cases hrun
    · split at hrun
      · cases hrun
        exact h
      · cases hrun
      · cases hrun
        exact ⟨by simpa using h.kept, h.scans, h.runs⟩
  | insertInvoice inv =>
    refine h.statement hs fun x hrun => ?_
    simp only [serveInsertInvoice] at hrun
    split at hrun
    · cases hrun
    · split at hrun
      · cases hrun
      · cases hrun
      · cases hrun
        exact ⟨h.kept, h.scans, h.runs⟩
  | markInvoiced marked inv =>
    refine h.statement hs fun x hrun => ?_
    simp only [serveMark] at hrun
    split at hrun
    · cases hrun
    · cases hrun
      refine ⟨h.kept, fun m sc hm hsc => ?_, h.runs⟩
      by_cases hmn : m = n
      · subst hmn
        simp only [World.setSession, Function.update_self] at hsc
        exact h.scans m sc hm hsc
      · simp only [World.setSession, Function.update_of_ne hmn] at hsc
        exact h.scans m sc hm hsc
  | unbilled sc =>
    simp only [Pricing.serve] at hs
    refine h.statement hs fun x hrun => ?_
    cases hrun
    refine ⟨h.kept, fun m sc hm hsc => ?_, h.runs⟩
    by_cases hmn : m = n
    · subst hmn
      simp only [World.setSession, Function.update_self, Option.some.injEq] at hsc
      subst hsc
      exact h.kept
    · simp only [World.setSession, Function.update_of_ne hmn] at hsc
      exact h.scans m sc hm hsc
  | newUUID =>
    cases c with
    | uuid id =>
      cases hs
      exact h
    | ok | failed | lost => cases hs
  | commit =>
    cases c with
    | ok | lost =>
      cases hs
      exact h.commit n
    | failed =>
      cases hs
      exact h.rollback n
    | uuid => cases hs
  | accrualID | invoiceForPeriod | effect =>
    simp only [Pricing.serve] at hs
    refine h.statement hs fun x hrun => ?_
    cases hrun
    exact h
end Read

variable (D)

/-- **A merchant's month is on one invoice**, in every state of a run with timely commits. -/
theorem one_invoice_per_month (moves : List (Move Request Choice Empty))
    (timely : ∀ e ∈ trace (system D).step { shared := {} } moves, Allowed (fun n _ => TimelyCommit n) e.1 e.2) :
    let w := ((system D).exec {} moves).shared
    ∀ inv ∈ committed w.invoices, (∀ inv' ∈ committed w.invoices, inv'.merchant = inv.merchant →
        inv'.period = inv.period → inv' = inv) ∧
      ∀ a ∈ committed w.accruals, a.merchant = inv.merchant → a.period = inv.period →
        a.invoice = some inv.id ∧ a.currency = inv.currency := by
  intro w inv hinv
  have hbooks : Books w := (sound timely).inv
  refine ⟨fun inv' hinv' hm hp => ?_, fun a ha hm hp => ?_⟩
  · exact congrArg Stored.row (hbooks.key_inj (mem_committed.mp hinv') (mem_committed.mp hinv) hm hp)
  · have hon := hbooks.settled inv hinv a ha hm hp
    obtain ⟨inv', hinv', hid, -, -, hcurrency⟩ := hbooks.stampedBy a ha inv.id hon
    obtain rfl := congrArg Stored.row (hbooks.id_inj (mem_committed.mp hinv') (mem_committed.mp hinv) hid)
    exact ⟨hon, hcurrency.symm⟩

namespace Sample
def deployment : Deployment where
  periodOf _ := "2026-05"
  upper := id
  isDigit := Char.isDigit

def record (n : Nat) (sourceRef : String) : List (Move Request Choice Empty) :=
  [.start (.recordAccrual { merchant := 7, amount := 100, currency := "KES", sourceRef, occurredAt := 0 }),
    .run n .ok, .run n .ok]

def sweep (n : Nat) : List (Move Request Choice Empty) :=
  .start (.generateForPeriod { period := "2026-05" }) ::
    [Choice.ok, .ok, .uuid 1, .ok, .ok, .ok, .ok, .ok].map (.run n)
end Sample

open Sample in
theorem one_invoice_per_month_sweep : let w := ((system deployment).exec {} (record 0 "a" ++ sweep 1)).shared
    (committed w.invoices).length = 1 ∧ ∀ inv ∈ committed w.invoices, ∀ a ∈ committed w.accruals,
      a.merchant = inv.merchant → a.period = inv.period → a.invoice = some inv.id ∧ a.currency = inv.currency :=
  ⟨by decide +kernel, fun inv hinv =>
    (one_invoice_per_month deployment (record 0 "a" ++ sweep 1) (by decide +kernel) inv hinv).2⟩

end LinkMint.Pricing
