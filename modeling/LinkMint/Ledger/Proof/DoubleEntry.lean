import LinkMint.Lib.CallLog
import LinkMint.Ledger.Proof.Posting

/-!
# The double-entry invariant

Whatever the callers do, on the pool or in transactions that commit or roll back, the committed
table and every transaction's own rows are `Posted`: only validated postings are ever inserted,
and a statement's rows come in as a whole or not at all.
-/

namespace LinkMint.Ledger

open LinkMint.Lib

def Op.Proper : Op → Prop
  | .insert _ rows => ∃ g input, rows = newRows g input ∧ Posting input.entries
  | _ => True

theorem post_only (h : Handle) (input : PostingInput) : (post h input).Only Op.Proper := by
  unfold post
  split
  · exact .ret _
  · next hvalid =>
    refine .bind (.op trivial) fun g => .bind (.op ⟨_, input, rfl, validate_ok_iff.mp hvalid⟩) fun a => ?_
    split
    · exact .ret _
    · exact .ret _

theorem reverse_only (h : Handle) (g : UUID) (note : String) : (reverse h g note).Only Op.Proper := by
  refine .bind (.op trivial) fun a => ?_
  split
  · exact .ret _
  · split
    · exact .ret _
    · exact post_only h _

theorem handle_only (q : Request) : (handle q).Only Op.Proper := by
  cases q with
  | beginTx repeatable => exact .bind (.op trivial) fun _ => .ret _
  | commit n => exact .bind (.op trivial) fun _ => .ret _
  | rollback n => exact .bind (.op trivial) fun _ => .ret _
  | post h input => exact .bind (post_only h input) fun _ => .ret _
  | reverse h g note => exact .bind (reverse_only h g note) fun _ => .ret _
  | balance h a c => exact .bind (.op trivial) fun _ => .ret _
  | isBalanced h c =>
    refine .bind (.bind (.op trivial) fun a => ?_) fun _ => .ret _
    split
    · exact .ret _
    · exact .ret _

theorem row?_eq_some {r : NewRow} {id : Nat} {row : Row} (h : r.row? id = some row) : row.entryGroup = r.entryGroup ∧
      row.leg = { account := r.account, direction := r.direction, amount := some r.amount,
                  currency := r.currency } := by
  unfold NewRow.row? at h
  split at h
  · split at h
    · cases h
      exact ⟨rfl, rfl⟩
    · cases h
  · cases h

theorem insertRows_eq_some {id : Nat} {news : List NewRow} {rows : List Row} (h : insertRows id news = some rows) :
    rows.map Row.entryGroup = news.map NewRow.entryGroup ∧ rows.map Row.leg = news.map fun r =>
        { account := r.account, direction := r.direction, amount := some r.amount, currency := r.currency } := by
  induction news generalizing id rows with
  | nil =>
    cases h
    exact ⟨rfl, rfl⟩
  | cons r news ih =>
    simp only [insertRows] at h
    split at h
    · next row rest hrow hrest =>
      cases h
      obtain ⟨hgroup, hleg⟩ := row?_eq_some hrow
      obtain ⟨hgroups, hlegs⟩ := ih hrest
      simp only [List.map_cons, hgroup, hleg, hgroups, hlegs, and_self]
    · cases h

theorem legs_insertRows {id : Nat} {g : UUID} {input : PostingInput} {rows : List Row}
    (h : insertRows id (newRows g input) = some rows) (hp : Posting input.entries) : rows.map Row.leg = input.entries := by
  rw [(insertRows_eq_some h).2, newRows, List.map_map]
  conv_rhs => rw [← List.map_id input.entries]
  refine List.map_congr_left fun l hl => ?_
  obtain ⟨n, hn, -⟩ := (hp.wellFormed l hl).amount
  cases l
  dsimp only at hn
  simp [hn]

theorem batch_insertRows {id : Nat} {g : UUID} {input : PostingInput} {rows : List Row}
    (h : insertRows id (newRows g input) = some rows) (hp : Posting input.entries) : Batch rows where
  posting := by rwa [legs_insertRows h hp]
  oneGroup := by
    refine ⟨g, fun r hr => ?_⟩
    have hmem : r.entryGroup ∈ rows.map Row.entryGroup := List.mem_map_of_mem hr
    rw [(insertRows_eq_some h).1, newRows, List.map_map] at hmem
    obtain ⟨l, -, hl⟩ := List.mem_map.mp hmem
    exact hl.symm

def Tx.Posted (tx : Tx) : Prop := Ledger.Posted tx.own ∧ ∀ rows, tx.snapshot = some rows → Ledger.Posted rows

structure Books (w : World) : Prop where
  table : Posted w.table
  txs : ∀ tx ∈ w.txs, tx.Posted

namespace Books
variable {w : World}

theorem view (h : Books w) {hd : Handle} {rows : List Row} (hv : w.view hd = some rows) : Posted rows := by
  cases hd with
  | pool =>
    cases hv
    exact h.table
  | tx n =>
    simp only [World.view] at hv
    split at hv
    · next tx htx =>
      split at hv
      · cases hv
        obtain ⟨hown, hsnapshot⟩ := h.txs tx (List.mem_of_getElem? htx)
        refine Posted.append ?_ hown
        cases hs : tx.snapshot with
        | none => exact h.table
        | some rows => exact hsnapshot rows hs
      · cases hv
    · cases hv

theorem setTx (h : Books w) (n : Nat) {tx : Tx} (htx : tx.Posted) : Books (w.setTx n tx) where
  table := h.table
  txs tx' hmem := by
    rcases List.mem_or_eq_of_mem_set hmem with hmem | rfl
    · exact h.txs tx' hmem
    · exact htx

theorem abort (h : Books w) (hd : Handle) : Books (w.abort hd) := by
  cases hd with
  | pool => exact h
  | tx n =>
    simp only [World.abort]
    split
    · next tx htx =>
      split
      · exact h.setTx n (h.txs tx (List.mem_of_getElem? htx))
      · exact h
    · exact h

theorem append (h : Books w) (hd : Handle) {rows : List Row} (hb : Batch rows) : Books (w.append hd rows) := by
  cases hd with
  | pool => exact ⟨h.table.snoc hb, h.txs⟩
  | tx n =>
    simp only [World.append]
    split
    · next tx htx =>
      obtain ⟨hown, hsnapshot⟩ := h.txs tx (List.mem_of_getElem? htx)
      exact setTx (w := { w with nextID := w.nextID + rows.length }) ⟨h.table, h.txs⟩ n ⟨hown.snoc hb, hsnapshot⟩
    · exact ⟨h.table, h.txs⟩
end Books

section Step

variable {w w' : World} {c : Choice}

theorem serveInsert_cases {hd : Handle} {news : List NewRow} {a : Except String Unit}
    (h : serveInsert w hd news c = some (a, w')) : (∃ m, a = .error m ∧ (w' = w ∨ w' = w.abort hd)) ∨
    ∃ rows new, w.view hd = some rows ∧ insertRows w.nextID news = some new ∧ w' = w.append hd new ∧
      (a = .ok () ∨ hd = .pool ∧ ∃ m, a = .error m) := by
  unfold serveInsert at h
  split at h
  · cases h
    exact .inl ⟨_, rfl, .inl rfl⟩
  · next rows hview =>
    cases hnew : insertRows w.nextID news with
    | none =>
      rw [hnew] at h
      refine .inl ?_
      cases c with
      | ok | failed m =>
        cases h
        exact ⟨_, rfl, .inr rfl⟩
      | lost m =>
        cases hd <;>
        · cases h
          exact ⟨_, rfl, .inr rfl⟩
      | uuid g => cases h
    | some new =>
      rw [hnew] at h
      cases c with
      | ok =>
        cases h
        exact .inr ⟨rows, new, hview, rfl, rfl, .inl rfl⟩
      | failed m =>
        cases h
        exact .inl ⟨_, rfl, .inr rfl⟩
      | lost m =>
        cases hd with
        | pool =>
          cases h
          exact .inr ⟨rows, new, hview, rfl, rfl, .inr ⟨rfl, m, rfl⟩⟩
        | tx n =>
          cases h
          exact .inl ⟨_, rfl, .inr rfl⟩
      | uuid g => cases h

theorem serveSelect_cases {α : Type} {hd : Handle} {query : List Row → α} {a : Except String α}
    (h : serveSelect w hd query c = some (a, w')) : (∃ m, a = .error m ∧ (w' = w ∨ w' = w.abort hd)) ∨
      ∃ rows, w.view hd = some rows ∧ a = .ok (query rows) ∧ w' = w := by
  unfold serveSelect at h
  split at h
  · split at h
    · next rows hview =>
      cases h
      exact .inr ⟨rows, hview, rfl, rfl⟩
    · cases h
      exact .inl ⟨_, rfl, .inl rfl⟩
  · cases h
    exact .inl ⟨_, rfl, .inr rfl⟩
  · cases h
    exact .inl ⟨_, rfl, .inr rfl⟩
  · cases h

theorem serveCommit_cases {n : Nat} {a : Except String Unit} (h : serveCommit w n c = some (a, w')) :
    ∃ tx, w.txs[n]? = some tx ∧ (w' = w ∨ w' = w.setTx n { tx with state := .closed } ∨
        w' = { w.setTx n { tx with state := .closed } with table := w.table ++ tx.own }) := by
  unfold serveCommit at h
  split at h
  · cases h
  · next tx htx =>
    refine ⟨tx, htx, ?_⟩
    dsimp only at h
    split at h
    · cases h
    · cases h
      exact .inl rfl
    · cases h
      exact .inr (.inl rfl)
    · cases h
      exact .inr (.inr rfl)
    · cases h
      exact .inr (.inl rfl)
    · cases h
      exact .inr (.inr rfl)

theorem serveRollback_cases {n : Nat} {a : Except String Unit} (h : serveRollback w n c = some (a, w')) :
    ∃ tx, w.txs[n]? = some tx ∧ w' = w.setTx n { tx with state := .closed } := by
  unfold serveRollback at h
  split at h
  · cases h
  · split at h
    · cases h
    · next tx htx =>
      cases h
      exact ⟨tx, htx, rfl⟩

theorem table_abort (w : World) (hd : Handle) : (w.abort hd).table = w.table := by
  cases hd with
  | pool => rfl
  | tx n =>
    simp only [World.abort]
    split
    · split <;> rfl
    · rfl

theorem table_append (w : World) (hd : Handle) (rows : List Row) : w.table <+: (w.append hd rows).table := by
  cases hd with
  | pool => exact List.prefix_append _ _
  | tx n =>
    simp only [World.append]
    split
    · exact List.prefix_rfl
    · exact List.prefix_rfl

theorem serve_books (n : Nat) (q : Request) {i : Op} {a : i.Answer} (proper : i.Proper) (hw : Books w)
    (h : serve n q w i c = some (a, w')) : Books w' ∧ w.table <+: w'.table := by
  have hsame : Books w ∧ w.table <+: w.table := ⟨hw, List.prefix_rfl⟩
  have habort : ∀ hd, Books (w.abort hd) ∧ w.table <+: (w.abort hd).table := by
    intro hd
    refine ⟨hw.abort hd, ?_⟩
    rw [table_abort]
  have hselect : ∀ (α : Type) (hd : Handle) (query : List Row → α) (a : Except String α),
      serveSelect w hd query c = some (a, w') → Books w' ∧ w.table <+: w'.table := by
    intro α hd query a h
    rcases serveSelect_cases h with ⟨m, -, rfl | rfl⟩ | ⟨rows, -, -, rfl⟩
    · exact hsame
    · exact habort hd
    · exact hsame
  cases i with
  | newUUID =>
    cases c <;> cases h
    exact hsame
  | beginTx repeatable =>
    cases c <;> cases h
    refine ⟨⟨hw.table, fun tx hmem => ?_⟩, List.prefix_rfl⟩
    rcases List.mem_append.mp hmem with hmem | hmem
    · exact hw.txs tx hmem
    · rw [List.mem_singleton] at hmem
      subst hmem
      refine ⟨.nil, fun rows hrows => ?_⟩
      cases repeatable with
      | true =>
        cases hrows
        exact hw.table
      | false => cases hrows
  | commit m =>
    obtain ⟨tx, htx, rfl | rfl | rfl⟩ := serveCommit_cases h
    · exact hsame
    · exact ⟨hw.setTx m (hw.txs tx (List.mem_of_getElem? htx)), List.prefix_rfl⟩
    · have hposted := hw.txs tx (List.mem_of_getElem? htx)
      have hclosed : Books (w.setTx m { tx with state := .closed }) := hw.setTx m hposted
      exact ⟨⟨hw.table.append hposted.1, hclosed.txs⟩, List.prefix_append _ _⟩
  | rollback m =>
    obtain ⟨tx, htx, rfl⟩ := serveRollback_cases h
    exact ⟨hw.setTx m (hw.txs tx (List.mem_of_getElem? htx)), List.prefix_rfl⟩
  | insert hd rows =>
    obtain ⟨g, input, rfl, hp⟩ := proper
    rcases serveInsert_cases h with ⟨m, -, rfl | rfl⟩ | ⟨_, new, -, hnew, rfl, -⟩
    · exact hsame
    · exact habort hd
    · exact ⟨hw.append hd (batch_insertRows hnew hp), table_append w hd new⟩
  | selectGroup hd g => exact hselect _ hd _ a h
  | selectBalance hd acct cur => exact hselect _ hd _ a h
  | selectNet hd cur => exact hselect _ hd _ a h

theorem view_append {hd : Handle} {rows new : List Row} (h : w.view hd = some rows) :
    (w.append hd new).view hd = some (rows ++ new) := by
  cases hd with
  | pool =>
    cases h
    rfl
  | tx n =>
    simp only [World.view] at h
    split at h
    · next tx htx =>
      split at h
      · next hactive =>
        cases h
        have hlt := (List.getElem?_eq_some_iff.mp htx).1
        simp only [World.append, htx, World.setTx, World.view, List.getElem?_set_self hlt, hactive, if_true,
          List.append_assoc]
      · cases h
    · cases h
end Step

theorem proper_run (moves : List (Move Request Choice Empty)) (w₀ : World) :
    ∀ e ∈ trace system.step { shared := w₀ } moves, Allowed (fun _ _ _ i _ => i.Proper) e.1 e.2 :=
  system.allowed_of_only handle_only (fun n r p hn => by simp at hn) moves

theorem books_run (moves : List (Move Request Choice Empty)) : Books (system.exec {} moves).shared := by
  have hserved : ∀ n q w i c a w', Books w → (fun _ _ _ i _ => Op.Proper i) n q w i c →
      system.serve n q w i c = some (a, w') → Books w' :=
    fun n q w i c a w' hw hproper h => (serve_books n q hproper hw h).1
  exact system.world_invariant (I := Books) hserved (fun _ w => nomatch w) ⟨.nil, by simp⟩ moves (proper_run moves {})

theorem table_run (moves more : List (Move Request Choice Empty)) :
    (system.exec {} moves).shared.table <+: (system.exec {} (moves ++ more)).shared.table := by
  have hserved : ∀ n q w i c a w', (Books w ∧ (system.exec {} moves).shared.table <+: w.table) →
      (fun _ _ _ i _ => Op.Proper i) n q w i c → system.serve n q w i c = some (a, w') →
      Books w' ∧ (system.exec {} moves).shared.table <+: w'.table := by
    rintro n q w i c a w' ⟨hw, hinitial⟩ hproper h
    obtain ⟨hw', hinitial'⟩ := serve_books n q hproper hw h
    exact ⟨hw', hinitial.trans hinitial'⟩
  have hproper := proper_run (moves ++ more) {}
  rw [trace_append] at hproper
  have hrun := system.world_invariant hserved (fun _ w => nomatch w) ⟨books_run moves, List.prefix_rfl⟩ more
    fun e he => hproper e (List.mem_append_right _ he)
  rw [System.exec_append]
  exact hrun.2

theorem legs_reversal (g : UUID) (entries : List Row) (note : String) :
    (reversal g entries note).entries = (entries.map Row.leg).map Leg.flipped := by
  simp only [reversal, List.map_map]
  rfl

theorem posting_reversal {rows : List Row} (h : Posted rows) {g : UUID} (hne : groupRows rows g ≠ [])
    (note : String) : Posting (reversal g (groupRows rows g) note).entries := by
  rw [legs_reversal]
  have hperm : (groupRows rows g).Perm (rows.filter fun r => r.entryGroup = g) := List.mergeSort_perm _ _
  have hne' : (rows.filter fun r => r.entryGroup = g) ≠ [] := by
    intro hnil
    rw [hnil] at hperm
    exact hne hperm.eq_nil
  exact (((h.group g).posting hne').perm (hperm.symm.map Row.leg)).flipped

theorem path_post {h : Handle} {input : PostingInput} {log : List (Σ i : Op, i.Answer)}
    {r : Except Error UUID} (hpath : (post h input).Path log (.ret r)) :
    (∃ e, validate input.entries = .error e ∧ r = .error e ∧ log = []) ∨
    ∃ fresh a, log = [⟨.newUUID, fresh⟩, ⟨.insert h (newRows (input.entryGroup.getD fresh) input), a⟩] ∧
      validate input.entries = .ok () ∧
      ((a = .ok () ∧ r = .ok (input.entryGroup.getD fresh)) ∨ ∃ m, r = .error (.plain m)) := by
  unfold post at hpath
  split at hpath
  · next e hinvalid =>
    obtain ⟨rfl, hr⟩ := Prog.Path.of_ret hpath
    cases hr
    exact .inl ⟨e, hinvalid, rfl, rfl⟩
  · next hvalid =>
    refine .inr ?_
    rcases Prog.Path.of_op hpath with ⟨-, hcall⟩ | ⟨fresh, log₁, rfl, hinsert⟩
    · cases hcall
    rcases Prog.Path.of_op hinsert with ⟨-, hcall⟩ | ⟨a, log₂, rfl, hdone⟩
    · cases hcall
    cases a with
    | error m =>
      obtain ⟨rfl, hr⟩ := Prog.Path.of_ret hdone
      cases hr
      exact ⟨fresh, _, rfl, hvalid, .inr ⟨_, rfl⟩⟩
    | ok u =>
      obtain ⟨rfl, hr⟩ := Prog.Path.of_ret hdone
      cases hr
      exact ⟨fresh, _, rfl, hvalid, .inl ⟨rfl, rfl⟩⟩

theorem path_reverse {h : Handle} {g : UUID} {note : String} {log : List (Σ i : Op, i.Answer)}
    {r : Except Error UUID} (hpath : (reverse h g note).Path log (.ret r)) :
    (∃ e, r = .error e ∧ e.isValidation = false) ∨
    ∃ entries log', entries ≠ [] ∧ log = ⟨.selectGroup h g, .ok entries⟩ :: log' ∧
      (post h (reversal g entries note)).Path log' (.ret r) := by
  rcases Prog.Path.of_op hpath with ⟨-, hcall⟩ | ⟨a, log', rfl, hrest⟩
  · cases hcall
  cases a with
  | error m =>
    obtain ⟨-, hr⟩ := Prog.Path.of_ret hrest
    cases hr
    exact .inl ⟨_, rfl, rfl⟩
  | ok entries =>
    dsimp only at hrest
    split at hrest
    · obtain ⟨-, hr⟩ := Prog.Path.of_ret hrest
      cases hr
      exact .inl ⟨_, rfl, rfl⟩
    · next hne => exact .inr ⟨entries, log', hne, rfl, hrest⟩

variable {moves : List (Move Request Choice Empty)}

theorem path_returned {α : Type} {n : Nat} {q : Request} {p : Proc α} {f : α → Reply} {r : Reply}
    (hq : handle q = p >>= fun a => pure (f a)) (h : (system.exec {} moves).returned? n = some (q, r)) :
    ∃ a, r = f a ∧ p.Path ((system.events n {} moves).map Event.made) (.ret a) := by
  have hpath := (system.path {} moves n).1 q _ (Config.returned?_eq_some h)
  rw [show system.main q = p >>= fun a => pure (f a) from hq] at hpath
  obtain ⟨a, log₁, log₂, hlog, h₁, h₂⟩ := Prog.Path.of_bind_ret hpath
  obtain ⟨rfl, hr⟩ := Prog.Path.of_ret h₂
  cases hr
  rw [List.append_nil] at hlog
  rw [hlog]
  exact ⟨a, rfl, h₁⟩

theorem of_selectGroup {n : Nat} {h : Handle} {g : UUID} {entries : List Row}
    (hmem : ⟨.selectGroup h g, .ok entries⟩ ∈ (system.events n {} moves).map Event.made) :
    ∃ rows, Posted rows ∧ entries = groupRows rows g := by
  obtain ⟨before, choice, after, q, w, -, hserve, -⟩ := System.of_made hmem
  rcases serveSelect_cases hserve with ⟨m, herr, -⟩ | ⟨rows, hview, hok, -⟩
  · cases herr
  · cases hok
    exact ⟨rows, (books_run before).view hview, rfl⟩

def Reversed (evs : List (Event Op Op.Answer World Choice)) (h : Handle) (g : UUID) : Prop :=
  ∃ entries news read write, read ∈ evs ∧ write ∈ evs ∧ read.made = ⟨.selectGroup h g, .ok entries⟩ ∧
    (∃ rows, read.before.view h = some rows ∧ entries = groupRows rows g) ∧
    write.made = ⟨.insert h news, .ok ()⟩ ∧
    ∃ rows rows', write.before.view h = some rows ∧ write.after.view h = some rows' ∧
      ∀ a c, balanceOf rows' a c = balanceOf rows a c - balanceOf entries a c

theorem reversed_of_returned {n : Nat} {h : Handle} {g : UUID} {note : String} {group : UUID}
    (hret : (system.exec {} moves).returned? n = some (.reverse h g note, .group (.ok group))) :
    Reversed (system.events n {} moves) h g := by
  obtain ⟨a, ha, hpath⟩ := path_returned (p := reverse h g note) (f := .group) rfl hret
  cases ha
  rcases path_reverse hpath with ⟨e, he, -⟩ | ⟨entries, log', hne, hlog, hpath'⟩
  · cases he
  rcases path_post hpath' with ⟨e, -, he, -⟩ | ⟨fresh, answer, rfl, hvalid, ⟨rfl, -⟩ | ⟨m, hm⟩⟩
  · cases he
  · have hread : ⟨.selectGroup h g, .ok entries⟩ ∈ (system.events n {} moves).map Event.made := by
      rw [hlog]
      exact List.mem_cons_self
    have hwrite : ⟨.insert h (newRows ((reversal g entries note).entryGroup.getD fresh)
        (reversal g entries note)), .ok ()⟩ ∈ (system.events n {} moves).map Event.made := by
      rw [hlog]
      simp
    obtain ⟨before, choice, after, q, w, -, hserve, hread⟩ := System.of_made hread
    obtain ⟨before', choice', after', q', w', -, hserve', hwrite⟩ := System.of_made hwrite
    refine ⟨entries, _, _, _, hread, hwrite, rfl, ?_, rfl, ?_⟩
    · rcases serveSelect_cases hserve with ⟨m, herr, -⟩ | ⟨rows, hview, hok, -⟩
      · cases herr
      · cases hok
        exact ⟨rows, hview, rfl⟩
    · rcases serveInsert_cases hserve' with ⟨m, herr, -⟩ | ⟨rows, new, hview, hnew, rfl, -⟩
      · cases herr
      · refine ⟨rows, rows ++ new, hview, view_append hview, fun acct cur => ?_⟩
        have hposting := validate_ok_iff.mp hvalid
        have hsided : ∀ l ∈ entries.map Row.leg, l.direction = .dr ∨ l.direction = .cr :=
          List.forall_mem_map.mpr fun r _ => r.sided
        rw [balanceOf_eq_netOf, balanceOf_eq_netOf, balanceOf_eq_netOf, List.map_append, netOf_append,
          legs_insertRows hnew hposting, legs_reversal, netOf_flipped hsided]
        omega
  · cases hm

theorem valid_of_returned {n : Nat} {h : Handle} {g : UUID} {note : String} {e : Error}
    (hret : (system.exec {} moves).returned? n = some (.reverse h g note, .group (.error e))) : e.isValidation = false := by
  obtain ⟨a, ha, hpath⟩ := path_returned (p := reverse h g note) (f := .group) rfl hret
  cases ha
  rcases path_reverse hpath with ⟨e', he, hvalidation⟩ | ⟨entries, log', hne, hlog, hpath'⟩
  · cases he
    exact hvalidation
  rcases path_post hpath' with ⟨e', hinvalid, -, -⟩ | ⟨fresh, answer, -, -, ⟨-, hok⟩ | ⟨m, hm⟩⟩
  · have hread : ⟨.selectGroup h g, .ok entries⟩ ∈ (system.events n {} moves).map Event.made := by
      rw [hlog]
      exact List.mem_cons_self
    obtain ⟨rows, hposted, rfl⟩ := of_selectGroup hread
    rw [validate_ok_iff.mpr (posting_reversal hposted hne note)] at hinvalid
    cases hinvalid
  · cases hok
  · cases hm
    rfl

theorem balanced_of_returned {n : Nat} {h : Handle} {c : String} {b : Bool}
    (hret : (system.exec {} moves).returned? n = some (.isBalanced h c, .balanced (.ok b))) : b = true := by
  obtain ⟨a, ha, hpath⟩ := path_returned (p := isBalanced h c) (f := .balanced) rfl hret
  cases ha
  rcases Prog.Path.of_op hpath with ⟨-, hcall⟩ | ⟨answer, log', hlog, hrest⟩
  · cases hcall
  cases answer with
  | error m =>
    obtain ⟨-, hr⟩ := Prog.Path.of_ret hrest
    cases hr
  | ok net =>
    obtain ⟨-, hr⟩ := Prog.Path.of_ret hrest
    cases hr
    have hread : ⟨.selectNet h c, .ok net⟩ ∈ (system.events n {} moves).map Event.made := by
      rw [hlog]
      exact List.mem_cons_self
    obtain ⟨before, choice, after, q, w, -, hserve, -⟩ := System.of_made hread
    rcases serveSelect_cases hserve with ⟨m, herr, -⟩ | ⟨rows, hview, hok, -⟩
    · cases herr
    · cases hok
      have hbalanced := ((books_run before).view hview).balanced c
      rw [netDebit_eq_sideTotal, hbalanced, beq_iff_eq]
      omega

/-- **The double-entry invariant.** -/
theorem double_entry (moves more : List (Move Request Choice Empty)) :
    (∀ c, sideTotal .dr ((system.exec {} moves).shared.table.map Row.leg) c =
      sideTotal .cr ((system.exec {} moves).shared.table.map Row.leg) c) ∧
    (∀ g c, sideTotal .dr ((groupRows (system.exec {} moves).shared.table g).map Row.leg) c =
      sideTotal .cr ((groupRows (system.exec {} moves).shared.table g).map Row.leg) c) ∧
    (system.exec {} moves).shared.table <+: (system.exec {} (moves ++ more)).shared.table ∧
    (∀ n h c b, (system.exec {} moves).returned? n = some (.isBalanced h c, .balanced (.ok b)) → b = true) ∧
    (∀ n h g note group, (system.exec {} moves).returned? n = some (.reverse h g note, .group (.ok group)) →
        Reversed (system.events n {} moves) h g) ∧
    (∀ n h g note e, (system.exec {} moves).returned? n = some (.reverse h g note, .group (.error e)) →
        e.isValidation = false) := by
  have hposted := (books_run moves).table
  refine ⟨hposted.balanced, fun g c => ?_, table_run moves more, fun n h c b => balanced_of_returned,
    fun n h g note group => reversed_of_returned, fun n h g note e => valid_of_returned⟩
  have hperm : (groupRows (system.exec {} moves).shared.table g).Perm
      ((system.exec {} moves).shared.table.filter fun r => r.entryGroup = g) := List.mergeSort_perm _ _
  rw [sideTotal_perm (hperm.map Row.leg), sideTotal_perm (hperm.map Row.leg)]
  exact (hposted.group g).balanced c

end LinkMint.Ledger
