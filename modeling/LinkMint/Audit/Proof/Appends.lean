import LinkMint.Audit.Store
import LinkMint.Audit.Proof.TamperEvidence

/-!
# Concurrent appends form one chain

Whoever inserts has the advisory lock, and has it until the row is committed or gone.
-/

namespace LinkMint.Audit

open LinkMint.Lib LinkMint.Chain

section
variable {env : Env}

theorem chained_append {x : Bytes} {es fs : List Entry} :
    Chained env x (es ++ fs) ↔ Chained env x es ∧ Chained env (lastHash x es) fs := by
  induction es generalizing x with
  | nil => simp [Chained, lastHash]
  | cons e es ih => simp only [List.cons_append, Chained, ih, lastHash_cons, and_assoc]

theorem Chained.walk_eq {x : Bytes} {es : List Entry} (h : Chained env x es) : walk env x es = { ok := true } := by
  induction es generalizing x with
  | nil => rfl
  | cons e es ih =>
    obtain ⟨hlink, hself, hrest⟩ := h
    have hcheck : checkEntry env e x = (true, true) := by simp [checkEntry, hlink, hself]
    simp only [walk, hcheck]
    exact ih hrest

theorem newestHash_getD (es : List Entry) : (newestHash es).getD genesis = lastHash genesis es := by
  unfold newestHash lastHash
  cases es.getLast? <;> rfl

theorem Chained.segment {es : List Entry} (sorted : es.Pairwise fun a b => a.entryID < b.entryID)
    (h : Chained env genesis es) (startID endID : Int) :
    Chained env (lastHash genesis (es.filter fun e => e.entryID < startID))
      (es.filter fun e => startID ≤ e.entryID ∧ e.entryID ≤ endID) := by
  have hfrom : Chained env (lastHash genesis (es.filter fun e => e.entryID < startID))
      (es.filter fun e => startID ≤ e.entryID) := by
    rw [← filter_append_filter sorted startID] at h
    exact (chained_append.mp h).2
  have hfilter : es.filter (fun e => startID ≤ e.entryID ∧ e.entryID ≤ endID) =
      (es.filter fun e => startID ≤ e.entryID).filter fun e => e.entryID < endID + 1 := by
    rw [List.filter_filter]
    refine List.filter_congr fun e _ => ?_
    rw [← Bool.decide_and, decide_eq_decide, Int.lt_add_one_iff, and_comm]
  have hsplit := filter_append_filter (sorted.filter fun e => startID ≤ e.entryID) (endID + 1)
  generalize es.filter (fun e => startID ≤ e.entryID) = later at hfrom hfilter hsplit
  rw [hfilter]
  rw [← hsplit] at hfrom
  exact (chained_append.mp hfrom).1

namespace Table
theorem rows_insert {t : Table} {id : Int} (c : Columns) (h : ∀ e ∈ t.rows, e.entryID < id) :
    rows (t.insert id c) = t.rows ++ [{ c with entryID := id }] := by
  have hsorted : (t.rows ++ [({ c with entryID := id } : Entry)]).Pairwise fun a b => a.entryID < b.entryID := by
    simp only [List.pairwise_append, List.pairwise_singleton, List.mem_singleton, forall_eq, true_and]
    exact ⟨t.sorted, h⟩
  have hnodup : ∀ {l : List Entry}, l.Pairwise (fun a b => a.entryID < b.entryID) → l.Nodup := fun hl =>
    hl.imp fun {a b} hlt heq => by
      rw [heq] at hlt
      exact lt_irrefl _ hlt
  have hperm : (rows (t.insert id c)).Perm (t.rows ++ [{ c with entryID := id }]) := by
    refine (List.perm_ext_iff_of_nodup (hnodup (sorted _)) (hnodup hsorted)).mpr fun e => ?_
    rw [mem_rows_iff, List.mem_append, List.mem_singleton, mem_rows_iff, Std.ExtTreeMap.getElem?_insert]
    by_cases hid : id = e.entryID
    · subst hid
      have hnone : ¬ t[e.entryID]? = some e.toColumns := fun hmem =>
        absurd (h e (mem_rows_iff.mpr hmem)) (lt_irrefl _)
      simp only [Std.compare_self, if_true, Option.some.injEq, hnone, false_or]
      constructor
      · rintro rfl
        rfl
      · intro heq
        rw [heq]
    · have hne : ¬ e = { c with entryID := id } := fun heq => hid (by rw [heq])
      simp [hid, hne]
  refine List.Perm.eq_of_pairwise (fun a b _ _ hab hba => ?_) (sorted _) hsorted hperm
  exact absurd (hab.trans hba) (lt_irrefl _)

theorem verifyRange_of_chained {t : Table} (h : Chained env genesis t.rows) (start stop : Option Int) :
    t.verifyRange env start stop = { ok := true } := by
  unfold verifyRange
  split
  · rfl
  · split
    · rfl
    · split
      · rfl
      · exact (h.segment t.sorted _ _).walk_eq
end Table
end

def World.Live (w : World) (n : Nat) : Prop := ∀ sent, (n, sent) ∉ w.orphans

structure Next (env : Env) (w : World) (r : Uncommitted) : Prop where
  lock : w.lock = some r.tx
  above : ∀ e ∈ w.table.rows, e.entryID < r.id
  below : r.id < w.nextID
  link : r.columns.prevHash = lastHash genesis w.table.rows
  self : r.columns.entryHash = hash env r.columns.prevHash r.columns.canonical

structure Inv (env : Env) (w : World) : Prop where
  chained : Chained env genesis w.table.rows
  below : ∀ e ∈ w.table.rows, e.entryID < w.nextID
  uncommitted : w.uncommitted = [] ∨ ∃ r, w.uncommitted = [r] ∧ Next env w r

structure Rely (n : Nat) (w w' : World) : Prop where
  grows : ∃ more, w'.table.rows = w.table.rows ++ more
  live : w.Live n → w'.Live n
  unlocked : w.lock ≠ some n → w'.lock ≠ some n
  locked : w.Live n → w.lock = some n → w'.lock = some n ∧ w'.table = w.table ∧ w'.uncommitted = w.uncommitted

theorem Rely.refl (n : Nat) (w : World) : Rely n w w := ⟨⟨[], by simp⟩, id, id, fun _ h => ⟨h, rfl, rfl⟩⟩

theorem Rely.trans {n : Nat} {w w' w'' : World} (h : Rely n w w') (h' : Rely n w' w'') : Rely n w w'' where
  grows := by
    obtain ⟨more, hmore⟩ := h.grows
    obtain ⟨more', hmore'⟩ := h'.grows
    exact ⟨more ++ more', by rw [hmore', hmore, List.append_assoc]⟩
  live hlive := h'.live (h.live hlive)
  unlocked hlock := h'.unlocked (h.unlocked hlock)
  locked hlive hlock := by
    obtain ⟨hl, ht, hu⟩ := h.locked hlive hlock
    obtain ⟨hl', ht', hu'⟩ := h'.locked (h.live hlive) hl
    exact ⟨hl', ht'.trans ht, hu'.trans hu⟩

namespace Inv
variable {env : Env} {w : World}

theorem endTx (h : Inv env w) (n : Nat) : Inv env (w.endTx n) where
  chained := h.chained
  below := h.below
  uncommitted := by
    rcases h.uncommitted with hnil | ⟨r, hr, hnext⟩
    · exact .inl (by simp [World.endTx, hnil])
    · by_cases htx : r.tx = n
      · exact .inl (by simp [World.endTx, hr, htx])
      · refine .inr ⟨r, by simp [World.endTx, hr, htx], ?_⟩
        exact { lock := by simp [World.endTx, hnext.lock, htx], above := hnext.above, below := hnext.below,
                link := hnext.link, self := hnext.self }

theorem commit_cases (h : Inv env w) (n : Nat) :
    w.commit n = w.endTx n ∨ ∃ r, w.uncommitted = [r] ∧ r.tx = n ∧ Next env w r ∧
      w.commit n = { w.endTx n with table := w.table.insert r.id r.columns } := by
  rcases h.uncommitted with hnil | ⟨r, hr, hnext⟩
  · left
    simp [World.commit, World.visible, World.own, World.endTx, hnil]
  · by_cases htx : r.tx = n
    · exact .inr ⟨r, hr, htx, hnext, by simp [World.commit, World.visible, World.own, hr, htx]⟩
    · left
      simp [World.commit, World.visible, World.own, World.endTx, hr, htx]

theorem commit (h : Inv env w) (n : Nat) : Inv env (w.commit n) := by
  rcases h.commit_cases n with heq | ⟨r, hr, htx, hnext, heq⟩
  · rw [heq]
    exact h.endTx n
  · have hrows := Table.rows_insert r.columns hnext.above
    rw [heq]
    refine ⟨?_, ?_, .inl (by simp [World.endTx, hr, htx])⟩
    · dsimp only
      rw [hrows, chained_append]
      exact ⟨h.chained, hnext.link, by rw [← hnext.link]; exact hnext.self, trivial⟩
    · intro e he
      dsimp only at he
      rw [hrows, List.mem_append, List.mem_singleton] at he
      rcases he with hmem | rfl
      · exact h.below e hmem
      · exact hnext.below
end Inv

section
variable {env : Env} {w : World} {m n : Nat}

theorem live_endTx (hlive : w.Live m) : (w.endTx n).Live m := fun sent hmem =>
  hlive sent (List.mem_filter.mp hmem).1

theorem lock_endTx_ne (hlock : w.lock ≠ some m) : (w.endTx n).lock ≠ some m := by
  simp only [World.endTx]
  split
  · simp
  · exact hlock

theorem rely_endTx (h : Inv env w) (hm : m ≠ n ∨ ¬ w.Live m) : Rely m w (w.endTx n) where
  grows := ⟨[], by simp [World.endTx]⟩
  live := live_endTx
  unlocked := lock_endTx_ne
  locked hlive hlock := by
    have hne : m ≠ n := hm.resolve_right fun hnot => hnot hlive
    refine ⟨by simp [World.endTx, hlock, hne], rfl, ?_⟩
    rcases h.uncommitted with hnil | ⟨r, hr, hnext⟩
    · simp [World.endTx, hnil]
    · have htx : m = r.tx := Option.some.inj (hlock.symm.trans hnext.lock)
      simp [World.endTx, hr, ← htx, hne]

theorem rely_commit (h : Inv env w) (hm : m ≠ n ∨ ¬ w.Live m) : Rely m w (w.commit n) := by
  rcases h.commit_cases n with heq | ⟨r, hr, htx, hnext, heq⟩
  · rw [heq]
    exact rely_endTx h hm
  · have hend := rely_endTx h hm
    rw [heq]
    refine ⟨⟨_, Table.rows_insert r.columns hnext.above⟩, hend.live, hend.unlocked, fun hlive hlock => ?_⟩
    -- the committed row was the lock holder's
    have hmn : m = n := Option.some.inj (hlock.symm.trans (hnext.lock.trans (congrArg some htx)))
    exact absurd hlive (hm.resolve_left fun hne => hne hmn)

theorem rely_abandon (sent : Bool) (hm : m ≠ n) : Rely m w (w.abandon n sent) where
  grows := ⟨[], by simp [World.abandon]⟩
  live hlive sent' hmem := by
    rcases List.mem_cons.mp hmem with heq | hmem
    · exact hm (Prod.mk.inj heq).1
    · exact hlive sent' hmem
  unlocked := id
  locked _ hlock := ⟨hlock, rfl, rfl⟩

theorem Inv.abandon (h : Inv env w) (sent : Bool) : Inv env (w.abandon n sent) := by
  refine ⟨h.chained, h.below, ?_⟩
  rcases h.uncommitted with hnil | ⟨r, hr, hnext⟩
  · exact .inl hnil
  · exact .inr ⟨r, hr, hnext.lock, hnext.above, hnext.below, hnext.link, hnext.self⟩

theorem finish_keeps (h : Inv env w) (f : Finish) : Inv env (w.finish f) ∧ ∀ m, Rely m w (w.finish f) := by
  have hgone : ∀ sent, (f.tx, sent) ∈ w.orphans → ∀ m, m ≠ f.tx ∨ ¬ w.Live m := by
    intro sent hmem m
    by_cases hm : m = f.tx
    · subst hm
      exact .inr fun hlive => hlive sent hmem
    · exact .inl hm
  unfold World.finish
  split
  · rename_i hcommit
    exact ⟨h.commit _, fun m => rely_commit h (hgone true hcommit.2 m)⟩
  · split
    · rename_i hex
      obtain ⟨sent, hmem⟩ := hex
      exact ⟨h.endTx _, fun m => rely_endTx h (hgone sent hmem m)⟩
    · exact ⟨h, fun m => .refl m w⟩
end

def contract (env : Env) : Contract Op Request World Choice where
  inv := Inv env
  guard _ _ _ _ _ := True
  rely := Rely
  fresh n w := w.Live n ∧ w.lock ≠ some n
  always _ _ _ := True

section
variable {lib : Library} {env : Env} {n : Nat} {q : Request} {w : World}

structure Holding (n : Nat) (w : World) : Prop where
  live : w.Live n
  lock : w.lock = some n
  nothing : w.uncommitted = []

theorem Holding.rely {w' : World} (h : Holding n w) (hrely : Rely n w w') : Holding n w' ∧ w'.table = w.table := by
  obtain ⟨hlock, htable, huncommitted⟩ := hrely.locked h.live h.lock
  exact ⟨⟨hrely.live h.live, hlock, huncommitted.trans h.nothing⟩, htable⟩

section
variable {w' : World} {c : Choice}

theorem serveSelect_eq {α : Type} {t : Table} {query : Table → α} {a : Except String α}
    (h : serveSelect w t query c = some (a, w')) : w' = w ∧ ∀ x, a = .ok x → x = query t := by
  cases c <;> simp only [serveSelect, Option.some.injEq, Prod.mk.injEq, reduceCtorEq] at h
  all_goals
    obtain ⟨rfl, rfl⟩ := h
    simp [eq_comm]

theorem serveLock_cases {a : Except String Unit} (h : serveLock w n c = some (a, w')) :
    (w' = w ∧ a ≠ .ok ()) ∨ ((w.lock = none ∨ w.lock = some n) ∧ w' = { w with lock := some n }) := by
  cases c <;> simp only [serveLock, Option.ite_none_right_eq_some, Option.some.injEq, Prod.mk.injEq, reduceCtorEq] at h
  case ok => exact .inr ⟨h.1, h.2.2.symm⟩
  case failed m =>
    obtain ⟨rfl, rfl⟩ := h
    exact .inl ⟨rfl, by simp⟩
  case lost m => exact .inr ⟨h.1, h.2.2.symm⟩

theorem serveInsert_cases {e : Columns} {a : Except String Int} (h : serveInsert lib w n e c = some (a, w')) :
    (w' = w ∧ ∀ id, a ≠ .ok id) ∨ ∃ columns, e.stored lib = some columns ∧ (∀ id, a = .ok id → id = w.nextID) ∧
      w' = { w with nextID := w.nextID + 1, uncommitted := w.uncommitted ++ [⟨n, w.nextID, columns⟩] } := by
  cases hstored : e.stored lib with
  | none =>
    left
    cases c <;> simp only [serveInsert, hstored, Option.some.injEq, Prod.mk.injEq, reduceCtorEq] at h
    all_goals
      obtain ⟨rfl, rfl⟩ := h
      simp
  | some columns =>
    cases c <;> simp only [serveInsert, hstored, Option.some.injEq, Prod.mk.injEq, reduceCtorEq] at h
    case ok =>
      obtain ⟨rfl, rfl⟩ := h
      exact .inr ⟨columns, rfl, fun id hid => (Except.ok.inj hid).symm, rfl⟩
    case failed m =>
      obtain ⟨rfl, rfl⟩ := h
      exact .inl ⟨rfl, by simp⟩
    case lost m =>
      obtain ⟨rfl, rfl⟩ := h
      exact .inr ⟨columns, rfl, by simp, rfl⟩

theorem serveCommit_cases {a : Except String Unit} (h : serveCommit w n c = some (a, w')) :
    w' = w.commit n ∨ (a ≠ .ok () ∧ (w' = w.endTx n ∨ w' = w.abandon n true)) := by
  cases c <;> simp only [serveCommit, Option.some.injEq, Prod.mk.injEq, reduceCtorEq] at h
  all_goals
    obtain ⟨rfl, rfl⟩ := h
    simp

theorem serveRollback_cases {a : Except String Unit} (h : serveRollback w n c = some (a, w')) :
    w' = w.endTx n ∨ w' = w.abandon n false := by
  cases c <;> simp only [serveRollback, Option.some.injEq, Prod.mk.injEq, reduceCtorEq] at h
  all_goals simp [← h.2]
end

theorem holds_read {i : Op} {post : i.Answer → World → Prop}
    (h : ∀ w₁, Rely n w w₁ → Inv env w₁ → ∀ c a w₂, serve lib n q w₁ i c = some (a, w₂) → w₂ = w₁ ∧ post a w₁) :
    Holds (serve lib) (contract env) n q (Prog.op i) post w := by
  intro w₁ hrely hinv c _ a w₂ hserve
  obtain ⟨rfl, hpost⟩ := h w₁ hrely hinv c a w₂ hserve
  exact ⟨hinv, fun m _ => .refl m _, trivial, hpost⟩

theorem holds_now (hlive : w.Live n) (hlock : w.lock ≠ some n) :
    Holds (serve lib) (contract env) n q Call.now (fun _ w' => w'.Live n ∧ w'.lock ≠ some n) w := by
  refine holds_read fun w₁ hrely _ c a w₂ hserve => ?_
  cases c <;> cases hserve
  exact ⟨rfl, hrely.live hlive, hrely.unlocked hlock⟩

theorem holds_begin (hlive : w.Live n) (hlock : w.lock ≠ some n) :
    Holds (serve lib) (contract env) n q Call.begin (fun _ w' => w'.Live n ∧ w'.lock ≠ some n) w := by
  refine holds_read fun w₁ hrely _ c a w₂ hserve => ?_
  cases c <;> cases hserve
  all_goals exact ⟨rfl, hrely.live hlive, hrely.unlocked hlock⟩

theorem lock_keeps (hinv : Inv env w) (hfree : w.lock = none) :
    w.uncommitted = [] ∧ Inv env { w with lock := some n } ∧ ∀ m, m ≠ n → Rely m w { w with lock := some n } := by
  have hnothing : w.uncommitted = [] := by
    rcases hinv.uncommitted with hnil | ⟨r, -, hnext⟩
    · exact hnil
    · rw [hnext.lock] at hfree
      cases hfree
  refine ⟨hnothing, ⟨hinv.chained, hinv.below, .inl hnothing⟩, fun m hm => ⟨⟨[], by simp⟩, id, fun _ => ?_, ?_⟩⟩
  · exact fun heq => hm (Option.some.inj heq).symm
  · intro _ hlock
    rw [hfree] at hlock
    cases hlock

theorem holds_lock (hlive : w.Live n) (hlock : w.lock ≠ some n) :
    Holds (serve lib) (contract env) n q Call.lock (fun a w' => a = .ok () → Holding n w') w := by
  intro w₁ hrely hinv c _ a w₂ hserve
  rcases serveLock_cases (show serveLock w₁ n c = some (a, w₂) from hserve) with ⟨rfl, hne⟩ | ⟨hcan, rfl⟩
  · exact ⟨hinv, fun m _ => .refl m _, trivial, fun h => absurd h hne⟩
  · have hfree := hcan.resolve_right (hrely.unlocked hlock)
    obtain ⟨hnothing, hinv', hothers⟩ := lock_keeps (n := n) hinv hfree
    exact ⟨hinv', hothers, trivial, fun _ => ⟨hrely.live hlive, rfl, hnothing⟩⟩

theorem holds_selectTail (h : Holding n w) :
    Holds (serve lib) (contract env) n q Call.selectTail (fun a w' => Holding n w' ∧
      ∀ tail, a = .ok tail → tail.getD genesis = lastHash genesis w'.table.rows) w := by
  refine holds_read fun w₁ hrely _ c a w₂ hserve => ?_
  obtain ⟨rfl, hanswer⟩ := serveSelect_eq
    (show serveSelect w₁ (w₁.visible n) (fun t => newestHash t.rows) c = some (a, w₂) from hserve)
  have hheld := (h.rely hrely).1
  refine ⟨rfl, hheld, fun tail htail => ?_⟩
  have hvisible : w₂.visible n = w₂.table := by simp [World.visible, World.own, hheld.nothing]
  rw [hanswer tail htail, hvisible, newestHash_getD]

structure Linked (env : Env) (e : Columns) (w : World) : Prop where
  link : e.prevHash = lastHash genesis w.table.rows
  self : e.entryHash = hash env e.prevHash e.canonical

structure Inserted (lib : Library) (n : Nat) (e : Columns) (id : Int) (w : World) : Prop where
  live : w.Live n
  lock : w.lock = some n
  row : ∃ c, e.stored lib = some c ∧ w.uncommitted = [⟨n, id, c⟩]

theorem insert_keeps {e c : Columns} (hinv : Inv env w) (h : Holding n w) (hlinked : Linked env e w)
    (hstored : e.stored lib = some c) :
    Inv env { w with nextID := w.nextID + 1, uncommitted := w.uncommitted ++ [⟨n, w.nextID, c⟩] } ∧
      ∀ m, m ≠ n → Rely m w { w with nextID := w.nextID + 1, uncommitted := w.uncommitted ++ [⟨n, w.nextID, c⟩] } := by
  have hcolumns : c.prevHash = e.prevHash ∧ c.entryHash = e.entryHash ∧ c.canonical = e.canonical := by
    obtain ⟨_, _, _, -, -, -, rfl⟩ := Columns.stored_eq_some hstored
    exact ⟨rfl, rfl, rfl⟩
  constructor
  · refine ⟨hinv.chained, fun e' he' => ?_, .inr ⟨⟨n, w.nextID, c⟩, by simp [h.nothing], ?_⟩⟩
    · have := hinv.below e' he'
      dsimp only
      omega
    · refine ⟨h.lock, hinv.below, by simp, ?_, ?_⟩
      · exact hcolumns.1.trans hlinked.link
      · rw [hcolumns.1, hcolumns.2.1, hcolumns.2.2]
        exact hlinked.self
  · intro m hm
    refine ⟨⟨[], by simp⟩, id, id, fun _ hlock => ?_⟩
    exact absurd (Option.some.inj (hlock.symm.trans h.lock)) hm

theorem holds_insert {e : Columns} (h : Holding n w) (hlinked : Linked env e w) :
    Holds (serve lib) (contract env) n q (Call.insert e) (fun a w' => ∀ id, a = .ok id → Inserted lib n e id w') w := by
  intro w₁ hrely hinv c _ a w₂ hserve
  obtain ⟨hheld, htable⟩ := h.rely hrely
  have hlinked' : Linked env e w₁ := ⟨by rw [htable]; exact hlinked.link, hlinked.self⟩
  rcases serveInsert_cases (show serveInsert lib w₁ n e c = some (a, w₂) from hserve) with
    ⟨rfl, hne⟩ | ⟨columns, hstored, hid, rfl⟩
  · exact ⟨hinv, fun m _ => .refl m _, trivial, fun id h => absurd h (hne id)⟩
  · obtain ⟨hinv', hothers⟩ := insert_keeps hinv hheld hlinked' hstored
    refine ⟨hinv', hothers, trivial, fun id h => ?_⟩
    obtain rfl := hid id h
    exact ⟨hheld.live, hheld.lock, columns, hstored, by simp [hheld.nothing]⟩

def Present (e : Entry) (w : World) : Prop :=
  ∃ row, w.table[e.entryID]? = some row ∧ row.prevHash = e.prevHash ∧ row.entryHash = e.entryHash ∧
    row.canonical = e.canonical

theorem holds_commit {e : Columns} {id : Int} (h : Inserted lib n e id w) :
    Holds (serve lib) (contract env) n q Call.commit
      (fun a w' => a = .ok () → Present { e with entryID := id } w') w := by
  intro w₁ hrely hinv c _ a w₂ hserve
  rcases serveCommit_cases (show serveCommit w₁ n c = some (a, w₂) from hserve) with rfl | ⟨hne, rfl | rfl⟩
  · refine ⟨hinv.commit n, fun m hm => rely_commit hinv (.inl hm), trivial, fun _ => ?_⟩
    obtain ⟨row, hstored, huncommitted⟩ := h.row
    have hrow : w₁.uncommitted = [⟨n, id, row⟩] := (hrely.locked h.live h.lock).2.2.trans huncommitted
    have hvisible : (w₁.commit n).table[id]? = some row := by simp [World.commit, World.visible, World.own, hrow]
    obtain ⟨_, _, _, -, -, -, rfl⟩ := Columns.stored_eq_some hstored
    exact ⟨_, hvisible, rfl, rfl, rfl⟩
  · exact ⟨hinv.endTx n, fun m hm => rely_endTx hinv (.inl hm), trivial, fun h => absurd h hne⟩
  · exact ⟨hinv.abandon true, fun m hm => rely_abandon true hm, trivial, fun h => absurd h hne⟩

theorem holds_abort {α : Type} {m : String} {post : Except String α → World → Prop} (h : ∀ w, post (.error m) w) :
    Holds (serve lib) (contract env) n q (abort m) post w := by
  intro w₁ hrely hinv c _ a w₂ hserve
  rcases serveRollback_cases (show serveRollback w₁ n c = some (a, w₂) from hserve) with rfl | rfl
  · exact ⟨hinv.endTx n, fun m hm => rely_endTx hinv (.inl hm), trivial, h _⟩
  · exact ⟨hinv.abandon false, fun m hm => rely_abandon false hm, trivial, h _⟩

def Appended (r : Except String Entry) (w : World) : Prop := ∀ e, r = .ok e → Present e w

theorem appended_error (m : String) (w : World) : Appended (.error m) w := fun _ h => by cases h

theorem holds_append (input : AppendInput) (hlive : w.Live n) (hlock : w.lock ≠ some n) :
    Holds (serve lib) (contract env) n q (append lib env input) Appended w := by
  apply Holds.bind (holds_begin hlive hlock)
  intro a w₁ h₁
  cases a with
  | error m => exact appended_error m w₁
  | ok =>
    apply Holds.bind (holds_lock h₁.1 h₁.2)
    intro a w₂ h₂
    cases a with
    | error m => exact holds_abort (appended_error m)
    | ok =>
      apply Holds.bind (holds_selectTail (h₂ rfl))
      intro a w₃ h₃
      obtain ⟨hheld, htail⟩ := h₃
      cases a with
      | error m => exact holds_abort (appended_error m)
      | ok tail =>
        dsimp only
        cases hbuild : buildEntry lib env input (tail.getD genesis) with
        | none => exact holds_abort (appended_error _)
        | some e =>
          have hlinked : Linked env e w₃ := by
            obtain ⟨canon, -, rfl⟩ := buildEntry_eq_some hbuild
            exact ⟨htail tail rfl, rfl⟩
          apply Holds.bind (holds_insert hheld hlinked)
          intro a w₄ h₄
          cases a with
          | error m => exact holds_abort (appended_error m)
          | ok id =>
            apply Holds.bind (holds_commit (h₄ id rfl))
            intro a w₅ h₅
            cases a with
            | error m => exact appended_error m w₅
            | ok =>
              intro e' he'
              obtain rfl := Except.ok.inj he'
              exact h₅ rfl

theorem holds_serviceAppend (input : AppendInput) (hlive : w.Live n) (hlock : w.lock ≠ some n) :
    Holds (serve lib) (contract env) n q (serviceAppend lib env input) Appended w := by
  unfold serviceAppend
  split
  · exact appended_error _ w
  · dsimp only
    split
    · apply Holds.bind (holds_now hlive hlock)
      exact fun occurredAt w₁ h₁ => holds_append _ h₁.1 h₁.2
    · exact holds_append _ hlive hlock

def Seen (id : Int) (w : World) : Prop := ∃ e ∈ w.table.rows, e.entryID = id

theorem Seen.rely {id : Int} {w' : World} (h : Seen id w) (hrely : Rely n w w') : Seen id w' := by
  obtain ⟨e, he, hid⟩ := h
  obtain ⟨more, hmore⟩ := hrely.grows
  exact ⟨e, by rw [hmore]; exact List.mem_append_left _ he, hid⟩

theorem Seen.filter_eq {id : Int} {w' : World} (h : Seen id w) (hrely : Rely n w w') :
    w'.table.rows.filter (fun e => e.entryID < id) = w.table.rows.filter fun e => e.entryID < id := by
  obtain ⟨e, he, rfl⟩ := h
  obtain ⟨more, hmore⟩ := hrely.grows
  have hsorted := w'.table.sorted
  rw [hmore, List.pairwise_append] at hsorted
  have hnone : more.filter (fun e' => e'.entryID < e.entryID) = [] := by
    simp only [List.filter_eq_nil_iff, decide_eq_true_eq, not_lt]
    exact fun e' he' => (hsorted.2.2 e he e' he').le
  rw [hmore, List.filter_append, hnone, List.append_nil]

theorem holds_selectMin (start : Option Int) : Holds (serve lib) (contract env) n q (Call.selectMin start)
      (fun a w' => ∀ id, a = .ok (some id) → Seen id w') w := by
  refine holds_read fun w₁ hrely _ c a w₂ hserve => ?_
  obtain ⟨rfl, hanswer⟩ := serveSelect_eq
    (show serveSelect w₁ w₁.table (fun t => t.boundID List.min? (notBefore start)) c = some (a, w₂) from hserve)
  refine ⟨rfl, fun id hid => ?_⟩
  have hmin := (List.min?_eq_some_iff.mp (hanswer _ hid).symm).1
  obtain ⟨e, he, heq⟩ := List.mem_map.mp hmin
  exact ⟨e, (List.mem_filter.mp he).1, heq⟩

theorem holds_selectMax (stop : Option Int) {id : Int} (h : Seen id w) :
    Holds (serve lib) (contract env) n q (Call.selectMax stop) (fun _ w' => Seen id w') w := by
  refine holds_read fun w₁ hrely _ c a w₂ hserve => ?_
  obtain ⟨rfl, -⟩ := serveSelect_eq
    (show serveSelect w₁ w₁.table (fun t => t.boundID List.max? (notAfter stop)) c = some (a, w₂) from hserve)
  exact ⟨rfl, h.rely hrely⟩

theorem holds_selectPred {id : Int} (h : Seen id w) :
    Holds (serve lib) (contract env) n q (Call.selectPred id) (fun a w' => Seen id w' ∧ ∀ pred, a = .ok pred →
      pred.getD genesis = lastHash genesis (w'.table.rows.filter fun e => e.entryID < id)) w := by
  refine holds_read fun w₁ hrely _ c a w₂ hserve => ?_
  obtain ⟨rfl, hanswer⟩ := serveSelect_eq (show serveSelect w₁ w₁.table
    (fun t => newestHash (t.rows.filter fun e => e.entryID < id)) c = some (a, w₂) from hserve)
  refine ⟨rfl, h.rely hrely, fun pred hpred => ?_⟩
  rw [hanswer pred hpred, newestHash_getD]

theorem holds_selectRange {startID : Int} (endID : Int) {expected : Bytes} (h : Seen startID w)
    (hexpected : expected = lastHash genesis (w.table.rows.filter fun e => e.entryID < startID)) :
    Holds (serve lib) (contract env) n q (Call.selectRange startID endID)
      (fun a _ => ∀ rows, a = .ok rows → Chained env expected rows) w := by
  refine holds_read fun w₁ hrely hinv c a w₂ hserve => ?_
  obtain ⟨rfl, hanswer⟩ := serveSelect_eq (show serveSelect w₁ w₁.table
    (fun t => t.rows.filter fun e => startID ≤ e.entryID ∧ e.entryID ≤ endID) c = some (a, w₂) from hserve)
  refine ⟨rfl, fun rows hrows => ?_⟩
  rw [hanswer rows hrows, hexpected, ← h.filter_eq hrely]
  exact hinv.chained.segment w₂.table.sorted startID endID

def Verified (r : Except String VerifyResult) : Prop := ∀ res, r = .ok res → res = { ok := true }

theorem verified_error (m : String) : Verified (.error m) := fun _ h => by cases h

theorem verified_ok : Verified (.ok { ok := true }) := fun _ h => (Except.ok.inj h).symm

theorem holds_verifyRange (start stop : Option Int) :
    Holds (serve lib) (contract env) n q (verifyRange env start stop) (fun r _ => Verified r) w := by
  apply Holds.bind (holds_selectMin start)
  intro a w₁ h₁
  rcases a with m | _ | startID
  · exact verified_error m
  · exact verified_ok
  · apply Holds.bind (holds_selectMax stop (h₁ startID rfl))
    intro a w₂ h₂
    rcases a with m | _ | endID
    · exact verified_error m
    · exact verified_ok
    · dsimp only
      split
      · exact verified_ok
      · apply Holds.bind (holds_selectPred h₂)
        intro a w₃ h₃
        rcases a with m | pred
        · exact verified_error m
        · apply Holds.bind (holds_selectRange endID h₃.1 (h₃.2 pred rfl))
          intro a w₄ h₄
          rcases a with m | rows
          · exact verified_error m
          · intro res hres
            obtain rfl := Except.ok.inj hres
            exact (h₄ rows rfl).walk_eq
end

def Answered (_ : Nat) (_ : Request) : Reply → World → Prop
  | .appended r, w => Appended r w
  | .verified r, _ => Verified r

theorem Present.rely {e : Entry} {n : Nat} {w w' : World} (h : Present e w) (hrely : Rely n w w') : Present e w' := by
  obtain ⟨row, hrow, hcolumns⟩ := h
  obtain ⟨more, hmore⟩ := hrely.grows
  have hmem : ({ row with entryID := e.entryID } : Entry) ∈ w'.table.rows := by
    rw [hmore]
    exact List.mem_append_left _ (Table.mem_rows_iff.mpr hrow)
  exact ⟨row, Table.mem_rows_iff.mp hmem, hcolumns⟩

theorem answered_rely {n : Nat} {q : Request} {a : Reply} {w w' : World} (h : Answered n q a w)
    (hrely : Rely n w w') : Answered n q a w' := by
  cases a with
  | appended r => exact fun e he => (h e he).rely hrely
  | verified r => exact h

theorem holds_handle {lib : Library} {env : Env} {n : Nat} {w : World} (q : Request) (hlive : w.Live n)
    (hlock : w.lock ≠ some n) : Holds (serve lib) (contract env) n q (handle lib env q) (Answered n q) w := by
  cases q with
  | append input =>
    apply Holds.bind (holds_serviceAppend input hlive hlock)
    exact fun r w₁ h => h
  | verify start stop =>
    apply Holds.bind (holds_verifyRange start stop)
    exact fun r w₁ h => h

theorem stable (env : Env) : (contract env).Stable World.finish where
  refl := Rely.refl
  trans _ _ _ _ h h' := h.trans h'
  fresh _ _ _ h hrely := ⟨hrely.live h.1, hrely.unlocked h.2⟩
  always _ _ _ _ _ _ := trivial
  drift _ f h := finish_keeps h f

/-- **Concurrent appends form one valid chain.** -/
theorem appends_form_one_chain (lib : Library) (env : Env) (moves : List (Move Request Choice Finish)) :
    let reached := (system lib env).exec {} moves
    Chained env genesis reached.shared.table.rows ∧
      (∀ n input e, reached.returned? n = some (.append input, .appended (.ok e)) →
        ∃ row, reached.shared.table[e.entryID]? = some row ∧ row.prevHash = e.prevHash ∧
          row.entryHash = e.entryHash ∧ row.canonical = e.canonical) ∧
      (∀ start stop, reached.shared.table.verifyRange env start stop = { ok := true }) ∧
      ∀ n start stop res, reached.returned? n = some (.verify start stop, .verified (.ok res)) →
        res = { ok := true } := by
  have hsound : Sound (system lib env) (contract env) Answered ((system lib env).exec {} moves) := by
    have hpost : ∀ n q a w w', Answered n q a w → Rely n w w' → Answered n q a w' :=
      fun n q a w w' h hrely => answered_rely h hrely
    refine (system lib env).sound (contract env) (stable env) hpost ?_ ?_ ?_ moves ?_
    · exact fun n q w _ hfresh => ⟨trivial, holds_handle q hfresh.1 hfresh.2⟩
    · exact ⟨trivial, by simp [Table.rows], .inl rfl⟩
    · exact fun n => ⟨by simp [World.Live], by simp⟩
    · rintro ⟨c, m⟩ -
      cases m <;> simp [Meets, contract]
  refine ⟨hsound.inv.chained, ?_, Table.verifyRange_of_chained hsound.inv.chained, ?_⟩
  · intro n input e hreturned
    exact (hsound.procs n _ _ (Config.returned?_eq_some hreturned)).2 e rfl
  · intro n start stop res hreturned
    exact (hsound.procs n _ _ (Config.returned?_eq_some hreturned)).2 res rfl

end LinkMint.Audit
