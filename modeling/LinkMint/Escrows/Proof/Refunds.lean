import LinkMint.Escrows.Proof.Safety

/-!
# A due release is not refunded

A pass of the sweeper releases the time locks that are due, and then refunds what has timed out.
-/

namespace LinkMint.Escrows

open LinkMint.Lib

variable {D : Deployment}

def Op.isFunding : Op → Bool
  | .applyFunding _ _ => true
  | _ => false

theorem Decision.setFunded_fn {d : Decision} {t : Int} {e : Escrow} {approvals : List String} {up : Update}
    {left : Left} (h : d.fn t e approvals = .ok (up, left)) : up.setFunded = false := by
  cases d with
  | confirm caller =>
    simp only [Decision.fn, Service.confirmFn] at h
    split at h
    · cases h
    · split at h
      · cases h
      · split at h
        · cases h
          rfl
        · cases h
          rfl
  | dispute caller reason =>
    simp only [Decision.fn, Service.disputeFn] at h
    split at h
    · cases h
    · split at h
      · cases h
      · cases h
        rfl

theorem funded_updateOf {r : Row} {up : Update} (u : Int) (h : up.setFunded = false) :
    (DB.updateOf r up u).escrow.funded = r.escrow.funded := by
  simp only [DB.updateOf]
  split
  · rfl
  · simp [DB.updateEscrow, h]

theorem funded_moveRow {pick : Escrow → Bool} {target : State} {u : Int} (r : Row) :
    (DB.moveRow pick target u r).escrow.funded = r.escrow.funded := by
  unfold DB.moveRow
  split <;> rfl

section Perform

variable {s s' : World} {i : Op} {c : Choice} {a : i.Answer} {id : String} {r r' : Row}

theorem perform_unfunding (hi : i.isFunding = false) (h : perform s i c = some (a, s'))
    (found : s.db.rows[id]? = some r) (found' : s'.db.rows[id]? = some r') : r'.escrow.funded = r.escrow.funded := by
  have hsame : s'.db.rows[id]? = s.db.rows[id]? → r'.escrow.funded = r.escrow.funded := by
    intro hrows
    rw [found', found] at hrows
    cases hrows
    rfl
  cases i with
  | now | newID =>
    cases c <;> cases h
    exact hsame rfl
  | createEscrow e =>
    rcases transact_cases h with ⟨rfl, -⟩ | ⟨dbTime, x, db, hrun, rfl, -⟩
    · exact hsame rfl
    · simp only [DB.createEscrow] at hrun
      split at hrun
      · cases hrun
      · next hnew =>
        cases hrun
        refine hsame ?_
        dsimp only
        rw [DB.rows_put, if_neg]
        rintro rfl
        rw [not_or] at hnew
        have hmem := hnew.1
        rw [Std.ExtTreeMap.contains_eq_isSome_getElem?, found] at hmem
        exact hmem rfl
  | mutate key d =>
    rcases transact_cases h with ⟨rfl, -⟩ | ⟨dbTime, x, db, hrun, rfl, -⟩
    · exact hsame rfl
    · obtain ⟨r₀, up, hr₀, hfn, -, rfl⟩ := mutate_cases hrun
      dsimp only at found'
      rw [DB.rows_put] at found'
      split at found'
      · next hkey =>
        rw [DB.id_updateOf, s.db.keyed key r₀ hr₀] at hkey
        rw [← hkey, hr₀] at found
        cases found
        cases found'
        exact funded_updateOf dbTime (Decision.setFunded_fn hfn)
      · exact congrArg (fun r : Row => r.escrow.funded) (Option.some.inj (found'.symm.trans found))
  | applyFunding plID txHash => cases hi
  | releaseDueTimeLocks t =>
    rcases sweepStatement_cases h with ⟨rfl, -⟩ | ⟨dbTime, -, rfl, -⟩
    · exact hsame rfl
    · simp only [DB.releaseDueTimeLocks, DB.moveAll, DB.rows_mapRows, found, Option.map_some] at found'
      cases found'
      exact funded_moveRow r
  | refundTimedOut t =>
    rcases sweepStatement_cases h with ⟨rfl, -⟩ | ⟨dbTime, -, rfl, -⟩
    · exact hsame rfl
    · simp only [DB.refundTimedOut, DB.moveAll, DB.rows_mapRows, found, Option.map_some] at found'
      cases found'
      exact funded_moveRow r
  | publish name e => exact hsame (by rw [servePublish_db h])

theorem perform_uncommitted (hc : c.committed = false) (h : perform s i c = some (a, s')) : s' = s := by
  cases c with
  | ok clock dbTime => cases hc
  | lost seen clock dbTime m => cases hc
  | failed seen dbTime m => cases i <;> cases h <;> rfl
  | text t =>
    cases i <;> cases h
    rfl

def Cleared (t : Int) (db : DB) : Prop :=
  ∀ (id : String) (r : Row), db.rows[id]? = some r → DB.releaseDue t r.escrow = false

theorem releaseDue_of_state {t : Int} {e : Escrow} (h : e.state ≠ .waiting) : DB.releaseDue t e = false := by
  simp [DB.releaseDue, h]

theorem cleared_releaseDueTimeLocks (db : DB) (t dbTime : Int) : Cleared t (db.releaseDueTimeLocks t dbTime).2 := by
  intro id r' hr'
  simp only [DB.releaseDueTimeLocks, DB.moveAll, DB.rows_mapRows, Option.map_eq_some_iff] at hr'
  obtain ⟨r, -, rfl⟩ := hr'
  unfold DB.moveRow
  split
  · exact releaseDue_of_state (by simp)
  · next hnot => simpa using hnot

def InTime (t : Int) (i : Op) (c : Choice) : Prop :=
  i.isFunding = true → c.committed = true → t ≤ c.time

instance (t : Int) (i : Op) (c : Choice) : Decidable (InTime t i c) :=
  inferInstanceAs (Decidable (_ → _ → _))

theorem Cleared.perform {t : Int} (hs : Cleared t s.db) (proper : i.Proper) (intime : InTime t i c)
    (h : perform s i c = some (a, s')) : Cleared t s'.db := by
  intro id r' hr'
  have hstep := perform_rows proper h id
  rw [hr'] at hstep
  generalize hr : s.db.rows[id]? = o at hstep
  cases hstep with
  | born e fresh => simp [DB.releaseDue, fresh.unpaid]
  | @change r _ hchange =>
    cases hchange with
    | keep => exact hs id _ hr
    | confirm => exact hs id r hr
    | confirmLast => exact releaseDue_of_state (by simp)
    | dispute => exact releaseDue_of_state (by simp)
    | fundLast => exact releaseDue_of_state (by simp)
    | releaseDue => exact releaseDue_of_state (by simp)
    | refund => exact releaseDue_of_state (by simp)
    | fund txHash u waits unpaid unmet =>
      -- only a payment that took effect does this, and at its time the lock was not due
      cases hfunding : i.isFunding with
      | false =>
        have hkept := perform_unfunding hfunding h hr hr'
        rw [unpaid] at hkept
        cases hkept
      | true =>
        cases hcommitted : c.committed with
        | false =>
          rw [perform_uncommitted hcommitted h, hr] at hr'
          have hpaid := congrArg (fun r : Row => r.escrow.funded) (Option.some.inj hr')
          exact absurd (unpaid.symm.trans hpaid) (by simp)
        | true =>
          have hle : t ≤ i.time c := by
            have := intime hfunding hcommitted
            cases i <;> first | exact this | cases hfunding
          by_contra hdue
          obtain ⟨-, -, htype, due, hdue, hdt⟩ := of_releaseDue (Bool.not_eq_false _ ▸ hdue)
          dsimp only at htype hdue
          simp only [Escrow.conditionSatisfied, htype, hdue, Option.any_some, decide_eq_false_iff_not] at unmet
          omega
end Perform

def AfterRelease (t : Int) (i : Op) : Prop :=
  (∀ t', i = .refundTimedOut t' → t' = t) ∧ ∀ t', i ≠ .releaseDueTimeLocks t'

def OnePass {α : Type} : Proc α → Prop
  | .ret _ => True
  | .call i k =>
    (∀ t, i = .releaseDueTimeLocks t → ∀ a, (k a).Only (AfterRelease t)) ∧ ∀ a, OnePass (k a)

theorem OnePass.of_only {α : Type} {p : Proc α} (h : p.Only fun i => ∀ t, i ≠ .releaseDueTimeLocks t) : OnePass p := by
  induction p with
  | ret a => trivial
  | call i k ih => exact ⟨fun t hi => absurd hi (h.1 t), fun a => ih a (h.2 a)⟩

theorem onePass_sweep : OnePass (handle D .sweep) := by
  -- what is left of the pass once the first statement has answered
  have hrest : ∀ (now : Int) (released : Swept), (do
      Service.publishAll .released released.1
      let refunded ← Call.refundTimedOut now
      Service.publishAll .refunded refunded.1 : Proc Unit).Only (AfterRelease now) := by
    intro now released
    have hpublish : ∀ name e, AfterRelease now (.publish name e) :=
      fun _ _ => ⟨fun _ h => (by cases h), fun _ h => (by cases h)⟩
    refine .bind (Service.publishAll_only (hpublish _) _) fun _ => .bind (.op ⟨?_, fun _ h => (by cases h)⟩)
      fun _ => Service.publishAll_only (hpublish _) _
    intro t' h
    exact (Op.refundTimedOut.inj h).symm
  refine ⟨fun t hi => (by cases hi), fun now => ⟨fun t hi released => ?_, fun released => .of_only ?_⟩⟩
  · obtain rfl := Op.releaseDueTimeLocks.inj hi
    exact .bind (hrest now released) fun _ => .ret _
  · exact (Prog.Only.bind (hrest now released) fun _ => .ret _).mono fun _ h => h.2

theorem onePass_handle (q : Request) : OnePass (handle D q) := by
  by_cases hq : q = .sweep
  · rw [hq]
    exact onePass_sweep
  · refine .of_only ((handle_unswept D hq).mono fun i h t hi => ?_)
    have hsweep := h.2
    rw [hi] at hsweep
    cases hsweep

def PaysInTime (t : Int) (c : Config Op Op.Answer Request World Reply) (m : Move Request Choice Empty) : Prop :=
  Allowed (fun _ _ _ i e => InTime t i e) c m

instance (t : Int) (c : Config Op Op.Answer Request World Reply) (m : Move Request Choice Empty) :
    Decidable (PaysInTime t c m) :=
  inferInstanceAs (Decidable (Allowed (fun _ _ _ i e => InTime t i e) c m))

theorem cleared_run {t : Int} {c : Config Op Op.Answer Request World Reply}
    {moves : List (Move Request Choice Empty)} (h : Cleared t c.shared.db)
    (proper : ∀ e ∈ trace (system D).step c moves, Allowed (fun _ _ _ i _ => Op.Proper i) e.1 e.2)
    (intime : ∀ e ∈ trace (system D).step c moves, PaysInTime t e.1 e.2) :
    Cleared t (moves.foldl (system D).step c).shared.db := by
  have hserved : ∀ n q s i e a s', Cleared t s.db → (fun _ _ _ i e => Op.Proper i ∧ InTime t i e) n q s i e →
      (system D).serve n q s i e = some (a, s') → Cleared t s'.db :=
    fun n q s i e a s' hs hguard hserve => hs.perform hguard.1 hguard.2 hserve
  refine (system D).world_invariant (I := fun s => Cleared t s.db) hserved (fun _ w => nomatch w) h moves fun e he => ?_
  have hproper := proper e he
  have hintime := intime e he
  obtain ⟨c, m⟩ := e
  cases m with
  | run n x => exact fun q i k hn => ⟨hproper q i k hn, hintime q i k hn⟩
  | start q => trivial
  | drift w => trivial

theorem release_step {c : Config Op Op.Answer Request World Reply} {n : Nat} {release : Choice} {t : Int}
    {q : Request} {k : Swept → Proc Reply}
    (hn : c.procs[n]? = some (q, .call (.releaseDueTimeLocks t) k)) (took : release.committed = true) :
    Cleared t ((system D).step c (.run n release)).shared.db ∧
      ∃ a, ((system D).step c (.run n release)).procs = c.procs.set n (q, k a) := by
  have hserve : ∃ a dbTime, (system D).serve n q c.shared (.releaseDueTimeLocks t) release =
      some (a, { c.shared with db := (c.shared.db.releaseDueTimeLocks t dbTime).2 }) := by
    cases release with
    | ok clock dbTime => exact ⟨_, dbTime, rfl⟩
    | lost seen clock dbTime m => exact ⟨_, dbTime, rfl⟩
    | failed seen dbTime m => cases took
    | text s => cases took
  obtain ⟨a, dbTime, hserve⟩ := hserve
  simp only [System.step, hn, hserve]
  exact ⟨cleared_releaseDueTimeLocks c.shared.db t dbTime, a, rfl⟩

theorem Legit.releaseDue {r : Row} {t : Int} (hr : Legit r) (waits : r.escrow.state = .waiting)
    (paid : r.escrow.funded = true) (due : r.escrow.conditionSatisfied r.approvals t = true) :
    DB.releaseDue t r.escrow = true := by
  have htype : r.escrow.conditionType = .timeLock := by
    by_contra htype
    have hpending := hr.pending waits paid htype t
    exact absurd (due.symm.trans hpending) (by simp)
  simp only [Escrow.conditionSatisfied, htype] at due
  simp [DB.releaseDue, waits, paid, htype, due]

/-- **A due release is not refunded.** -/
theorem due_not_refunded (D : Deployment) (before between : List (Move Request Choice Empty)) (n : Nat)
    (release refund : Choice) (t t' : Int)
    (first : ((system D).exec {} before).next? n = some (.releaseDueTimeLocks t))
    (took : release.committed = true)
    (intime : ∀ e ∈ trace (system D).step ((system D).exec {} (before ++ [.run n release])) between,
      PaysInTime t e.1 e.2)
    (second : ((system D).exec {} (before ++ [.run n release] ++ between)).next? n = some (.refundTimedOut t'))
    (id : String) (r : Row)
    (found : ((system D).exec {} (before ++ [.run n release] ++ between)).shared.db.rows[id]? = some r)
    (paid : r.escrow.funded = true) (due : r.escrow.conditionSatisfied r.approvals t' = true) :
    (∀ at', r.escrow.releaseAt = some at' → at' < r.escrow.timeoutAt) ∧
    ∃ r', ((system D).step ((system D).exec {} (before ++ [.run n release] ++ between))
        (.run n refund)).shared.db.rows[id]? = some r' ∧ r'.escrow.state = r.escrow.state := by
  obtain ⟨q, k, hn⟩ := Config.next?_eq_some first
  have hexec := (system D).exec_snoc {} before (.run n release)
  have hexec' := (system D).exec_append {} (before ++ [.run n release]) between
  obtain ⟨hcleared, a, hprocs⟩ := release_step (D := D) hn took
  rw [← hexec] at hcleared hprocs
  have hlt : n < ((system D).exec {} before).procs.length := (List.getElem?_eq_some_iff.mp hn).1
  -- what the pass has still to do, it does at the same time
  have hrest : (k a).Only (AfterRelease t) :=
    ((system D).procs_invariant (P := fun _ _ p => OnePass p) (fun _ q _ => onePass_handle q)
      (fun _ _ _ _ a h => h.2 a) (fun _ _ _ h => by simp at h) before n q _ hn).1 t rfl a
  have hlast : ∀ q' p, ((system D).exec {} (before ++ [.run n release] ++ between)).procs[n]? = some (q', p) →
      p.Only (AfterRelease t) := by
    intro q' p hp
    rw [hexec'] at hp
    refine (system D).procs_invariant (P := fun n' _ p => n' = n → p.Only (AfterRelease t))
      (fun n' _ hle h => ?_) (fun _ _ _ _ a h hn' => (h hn').2 a) (fun n' q'' p' h hn' => ?_)
      between n q' p hp rfl
    · rw [hprocs, List.length_set] at hle
      omega
    · rw [hn', hprocs, List.getElem?_set_self hlt] at h
      cases h
      exact hrest
  obtain ⟨q', k', hn'⟩ := Config.next?_eq_some second
  obtain rfl : t' = t := (hlast q' _ hn').1.1 t' rfl
  have hproper := proper_run (D := D) (before ++ [.run n release] ++ between ++ [.run n refund]) {}
  rw [trace_append, trace_append] at hproper
  have hcleared' := cleared_run (D := D) hcleared
    (fun e he => hproper e (List.mem_append_left _ (List.mem_append_right _ he))) intime
  rw [← hexec'] at hcleared'
  have hr := allLegit_run (before ++ [.run n release] ++ between) id r found
  have hne : r.escrow.state ≠ .waiting := by
    intro hwaits
    have hdue := hr.releaseDue hwaits paid due
    exact absurd (hdue.symm.trans (hcleared' id r found)) (by simp)
  refine ⟨hr.deadline, ?_⟩
  obtain ⟨r', hr', hcases⟩ := step_row (D := D)
    (hproper (_, _) (List.mem_append_right _ List.mem_cons_self)) found
  refine ⟨r', hr', ?_⟩
  rcases hcases with rfl | ⟨_, -, hchange⟩
  · rfl
  · exact hchange.state_kept hr hne

namespace Sample
def late : List (Move Request Choice Empty) := paid ++ [.start .sweep, .run 2 (.ok 101 101)]

def lateRow : Row :=
  { paidRow with escrow := { paidRow.escrow with state := .released, updatedAt := 101 } }
end Sample

theorem due_not_refunded_late : ∃ r', ((system Sample.deployment).step ((system Sample.deployment).exec {}
        (Sample.late ++ [.run 2 (.ok 101 101)] ++ [.run 2 (.ok 101 101)]))
        (.run 2 (.ok 101 101))).shared.db.rows["esc-1"]? = some r' ∧
      r'.escrow.state = Sample.lateRow.escrow.state := by
  have first : ((system Sample.deployment).exec {} Sample.late).next? 2 = some (.releaseDueTimeLocks 101) := by
    decide +kernel
  have intime : ∀ e ∈ trace (system Sample.deployment).step ((system Sample.deployment).exec {}
      (Sample.late ++ [.run 2 (.ok 101 101)])) [.run 2 (.ok 101 101)], PaysInTime 101 e.1 e.2 := by
    decide +kernel
  have second : ((system Sample.deployment).exec {}
      (Sample.late ++ [.run 2 (.ok 101 101)] ++ [.run 2 (.ok 101 101)])).next? 2 = some (.refundTimedOut 101) := by
    decide +kernel
  have found : ((system Sample.deployment).exec {} (Sample.late ++ [.run 2 (.ok 101 101)] ++
      [.run 2 (.ok 101 101)])).shared.db.rows["esc-1"]? = some Sample.lateRow := by
    decide +kernel
  exact (due_not_refunded Sample.deployment Sample.late [.run 2 (.ok 101 101)] 2 (.ok 101 101)
    (.ok 101 101) 101 101 first rfl intime second "esc-1" Sample.lateRow found rfl rfl).2

/-- The pass's release statement fails, and its refund statement refunds the time lock that was due. -/
theorem due_refunded : ((system Sample.deployment).exec {} (Sample.late ++
        [.run 2 (.failed (fun _ => false) 101 "connection reset")])).shared.db.rows["esc-1"]? =
      some Sample.paidRow ∧
    Sample.paidRow.escrow.funded = true ∧
    Sample.paidRow.escrow.conditionSatisfied Sample.paidRow.approvals 101 = true ∧
    (((system Sample.deployment).exec {} (Sample.late ++ [.run 2 (.failed (fun _ => false) 101 "connection reset"),
          .run 2 (.ok 101 101)])).shared.db.rows["esc-1"]?.map fun r => r.escrow.state) =
      some .refunded := by
  decide +kernel

end LinkMint.Escrows
