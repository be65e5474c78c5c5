import LinkMint.Lib.HashChain
import LinkMint.Lib.Text
import LinkMint.Chain.Merkle
import LinkMint.Chain.Devnet
import LinkMint.Audit.Log

/-!
# The audit log is tamper-evident

A log that verifies is a hash chain in the sense of `Lib.HashChain`.
-/

namespace LinkMint.Audit

open LinkMint.Lib LinkMint.Chain

section
variable {env : Env}

def Chained (env : Env) : Bytes → List Entry → Prop
  | _, [] => True
  | expected, e :: es =>
    e.prevHash = expected ∧ e.entryHash = hash env expected e.canonical ∧ Chained env e.entryHash es

theorem walk_ok {expected : Bytes} {es : List Entry} : (walk env expected es).ok = true ↔ Chained env expected es := by
  induction es generalizing expected with
  | nil => simp [walk, Chained]
  | cons e es ih =>
    simp only [walk, checkEntry, Chained]
    by_cases hlink : e.prevHash = expected
    · by_cases hself : hash env expected e.canonical = e.entryHash
      · simp [hlink, hself, ih]
      · simp [hlink, hself, Ne.symm hself]
    · simp [hlink]

def hashed (es : List Entry) : List Bytes := es.map fun e => e.prevHash ++ e.canonical

def contents (es : List Entry) : List Bytes := es.map (·.canonical)

def lastHash (expected : Bytes) (es : List Entry) : Bytes := (es.getLast?).elim expected (·.entryHash)

theorem lastHash_cons (expected : Bytes) (e : Entry) (es : List Entry) :
    lastHash expected (e :: es) = lastHash e.entryHash es := by
  cases es with
  | nil => rfl
  | cons e' es => simp [lastHash, List.getLast?_cons]

namespace Chained
variable {expected : Bytes} {es : List Entry}

theorem lastHash_eq (h : Chained env expected es) : lastHash expected es = (contents es).foldl (hash env) expected := by
  induction es generalizing expected with
  | nil => rfl
  | cons e es ih =>
    obtain ⟨-, hself, hrest⟩ := h
    rw [lastHash_cons, ih hrest, hself]
    simp only [contents, List.map_cons, List.foldl_cons]

theorem hashed_eq (h : Chained env expected es) :
    hashed es = (inputs (hash env) expected (contents es)).map fun p => p.1 ++ p.2 := by
  induction es generalizing expected with
  | nil => rfl
  | cons e es ih =>
    obtain ⟨hlink, hself, hrest⟩ := h
    have htail := ih hrest
    rw [hself] at htail
    simp only [hashed, contents, List.map_cons, inputs] at htail ⊢
    rw [hlink, htail]
end Chained

theorem length_genesis : genesis.length = hashLen := List.length_replicate

theorem length_hash (prev canonical : Bytes) : (hash env prev canonical).length = hashLen := length_hashBytes _

theorem length_of_mem_inputs {seed : Bytes} {cs : List Bytes} {p : Bytes × Bytes}
    (hseed : seed.length = hashLen) (h : p ∈ inputs (hash env) seed cs) : p.1.length = hashLen := by
  induction cs generalizing seed with
  | nil => cases h
  | cons c cs ih =>
    rcases List.mem_cons.mp h with rfl | h
    · exact hseed
    · exact ih (length_hash seed c) h

theorem hashBytes_zero : hashBytes 0 = genesis := by decide

theorem contents_eq_of_lastHash {es es' : List Entry}
    (free : CollisionFree env (hashed es ++ hashed es')) (chain : Chained env genesis es)
    (chain' : Chained env genesis es') (h : lastHash genesis es = lastHash genesis es') : contents es = contents es' := by
  rw [chain.hashed_eq, chain'.hashed_eq, ← List.map_append] at free
  rw [chain.lastHash_eq, chain'.lastHash_eq] at h
  -- the pairs both chains are made of, and the strings they are hashed as
  generalize hjs : inputs (hash env) genesis (contents es) ++ inputs (hash env) genesis (contents es') = js
    at free
  have hlen : ∀ p ∈ js, p.1.length = hashLen := by
    intro p hp
    rw [← hjs, List.mem_append] at hp
    rcases hp with hp | hp
    · exact length_of_mem_inputs length_genesis hp
    · exact length_of_mem_inputs length_genesis hp
  have hmem : ∀ p ∈ js, p.1 ++ p.2 ∈ js.map fun p => p.1 ++ p.2 := fun p hp => List.mem_map_of_mem hp
  have inj : Set.InjOn (fun p : Bytes × Bytes => hash env p.1 p.2) {p | p ∈ js} := by
    intro p hp q hq heq
    have hstr := free.injective (hmem p hp) (hmem q hq) (hashBytes_injective heq)
    have hfst := (hlen p hp).trans (hlen q hq).symm
    exact Prod.ext (List.append_inj_left hstr hfst) (List.append_inj_right hstr hfst)
  have apart : ∀ p ∈ js, hash env p.1 p.2 ≠ genesis := by
    intro p hp heq
    rw [← hashBytes_zero] at heq
    exact free.nonzero _ (hmem p hp) (hashBytes_injective heq)
  refine foldl_injective inj apart (fun p hp => ?_) (fun p hp => ?_) h
  · rw [← hjs]
    exact List.mem_append_left _ hp
  · rw [← hjs]
    exact List.mem_append_right _ hp

namespace Table
theorem mem_rows_iff {t : Table} {e : Entry} : e ∈ t.rows ↔ t[e.entryID]? = some e.toColumns := by
  rw [rows, List.mem_map]
  constructor
  · rintro ⟨⟨id, c⟩, hmem, rfl⟩
    exact Std.ExtTreeMap.mem_toList_iff_getElem?_eq_some.mp hmem
  · intro h
    exact ⟨(e.entryID, e.toColumns), Std.ExtTreeMap.mem_toList_iff_getElem?_eq_some.mpr h, rfl⟩

theorem verifyRange_unbounded (t : Table) : t.verifyRange env none none = walk env genesis t.rows := by
  have hall : t.rows.filter (notBefore none) = t.rows := List.filter_eq_self.mpr fun _ _ => rfl
  have hall' : t.rows.filter (notAfter none) = t.rows := List.filter_eq_self.mpr fun _ _ => rfl
  simp only [verifyRange, boundID, hall, hall']
  cases hmin : (t.rows.map (·.entryID)).min? with
  | none =>
    rw [List.min?_eq_none_iff, List.map_eq_nil_iff] at hmin
    rw [hmin]
    rfl
  | some startID =>
    cases hmax : (t.rows.map (·.entryID)).max? with
    | none =>
      rw [List.max?_eq_none_iff, List.map_eq_nil_iff] at hmax
      rw [hmax] at hmin
      cases hmin
    | some endID =>
      obtain ⟨hstart, hleast⟩ := List.min?_eq_some_iff.mp hmin
      obtain ⟨-, hgreatest⟩ := List.max?_eq_some_iff.mp hmax
      have hbetween : ∀ e ∈ t.rows, startID ≤ e.entryID ∧ e.entryID ≤ endID := fun e he =>
        ⟨hleast _ (List.mem_map_of_mem he), hgreatest _ (List.mem_map_of_mem he)⟩
      have hpred : t.predHash startID = genesis := by
        have hnone : t.rows.filter (fun e => e.entryID < startID) = [] := by
          simp only [List.filter_eq_nil_iff, decide_eq_true_eq, not_lt]
          exact fun e he => (hbetween e he).1
        rw [predHash, hnone]
        rfl
      have horder : ¬ endID < startID := not_lt.mpr (hgreatest _ hstart)
      have hrows : t.rows.filter (fun e => startID ≤ e.entryID ∧ e.entryID ≤ endID) = t.rows := by
        simpa [List.filter_eq_self] using hbetween
      simp only [horder, hpred, hrows, if_false]

theorem tail_fst (t : Table) : t.tail.1 = lastHash genesis t.rows := by
  unfold tail
  split
  · next hempty =>
    rw [List.length_eq_zero_iff] at hempty
    rw [hempty]
    rfl
  · rfl

/-- **Tamper evidence.** Two tables that verify and have the same tail hash hold the same contents in
    the same order. -/
theorem canonicals_eq_of_tail {t t' : Table}
    (free : CollisionFree env (hashed t.rows ++ hashed t'.rows))
    (ok : (t.verifyRange env none none).ok = true) (ok' : (t'.verifyRange env none none).ok = true)
    (same : t.tail.1 = t'.tail.1) : t.canonicals = t'.canonicals := by
  rw [verifyRange_unbounded, walk_ok] at ok ok'
  rw [tail_fst, tail_fst] at same
  exact contents_eq_of_lastHash free ok ok' same
end Table
end

/-! ## Two copies of a log

The second copy was restored under other ids. The digests are SHA-256's. -/

theorem filter_append_filter {es : List Entry} (sorted : es.Pairwise fun a b => a.entryID < b.entryID) (id : Int) :
    es.filter (fun e => e.entryID < id) ++ es.filter (fun e => id ≤ e.entryID) = es := by
  induction es with
  | nil => rfl
  | cons e es ih =>
    obtain ⟨hfirst, hrest⟩ := List.pairwise_cons.mp sorted
    by_cases hlt : e.entryID < id
    · rw [List.filter_cons_of_pos (by simpa using hlt), List.filter_cons_of_neg (by simpa using hlt),
        List.cons_append, ih hrest]
    · have hnone : es.filter (fun e => e.entryID < id) = [] := by
        simp only [List.filter_eq_nil_iff, decide_eq_true_eq, not_lt]
        intro e' he'
        have := hfirst e' he'
        omega
      have hall : es.filter (fun e => id ≤ e.entryID) = es := by
        simp only [List.filter_eq_self, decide_eq_true_eq]
        intro e' he'
        have := hfirst e' he'
        omega
      rw [List.filter_cons_of_neg (by simpa using hlt), List.filter_cons_of_pos (by simpa using hlt), hnone, hall,
        List.nil_append]

theorem Table.sorted (t : Table) : t.rows.Pairwise fun a b => a.entryID < b.entryID := by
  have h := Std.ExtTreeMap.ordered_keys_toList (t := t)
  rw [Table.rows, List.pairwise_map]
  exact h.imp fun h => Int.compare_eq_lt.mp h

namespace Sample
def suspended : Bytes := bytesOf "\x7b\"action\":\"merchant.suspend\",\"actor\":\x7b\"id\":null,\"kind\":\"system\"\x7d,\"after\":null,\"before\":null,\"context\":\x7b\"reason\":\"kyc\"\x7d,\"occurred_at\":\"2023-11-14T22:15:00Z\",\"resource\":\"merchant:7\"\x7d"

def searched : Bytes := bytesOf "\x7b\"action\":\"admin.search\",\"actor\":\x7b\"id\":null,\"kind\":\"service\"\x7d,\"after\":null,\"before\":null,\"context\":\x7b\x7d,\"occurred_at\":\"2023-11-14T22:16:40Z\",\"resource\":\"user:12\"\x7d"

def suspendedHash : Hash := 0xa85a30d807a12f190c8484c3c21a36c34195c330e05cfc32868e3394306b1c6c

def searchedHash : Hash := 0x8c60703b2efcedd8d23ef05ed93f7fa2bb6e54f93d658cfd73d6665bc0e7a5d1

def env : Env :=
  { Chain.Devnet.env with
    sha256 := fun data =>
      if data = genesis ++ suspended then suspendedHash
      else if data = hashBytes suspendedHash ++ searched then searchedHash
      else 0 }

def suspension : Columns where
  occurredAt := 1700000100000000
  actor := { id := none, kind := "system" }
  action := "merchant.suspend"
  resource := "merchant:7"
  context := bytesOf "\x7b\"reason\":\"kyc\"\x7d"
  prevHash := genesis
  entryHash := hashBytes suspendedHash
  canonical := suspended

def search : Columns where
  occurredAt := 1700000200000000
  actor := { id := none, kind := "service" }
  action := "admin.search"
  resource := "user:12"
  context := bytesOf "\x7b\x7d"
  prevHash := hashBytes suspendedHash
  entryHash := hashBytes searchedHash
  canonical := searched

def original : Table := (∅ : Table) |>.insert 1 suspension |>.insert 2 search

def restored : Table := (∅ : Table) |>.insert 11 suspension |>.insert 15 search

theorem rows_original : original.rows = [{ suspension with entryID := 1 }, { search with entryID := 2 }] := rfl

theorem rows_restored : restored.rows = [{ suspension with entryID := 11 }, { search with entryID := 15 }] := rfl

theorem sha256_suspended : env.sha256 (genesis ++ suspended) = suspendedHash := by
  simp only [env, if_true]

theorem sha256_searched : env.sha256 (hashBytes suspendedHash ++ searched) = searchedHash := by
  have hne : hashBytes suspendedHash ++ searched ≠ genesis ++ suspended := by decide +kernel
  simp only [env, hne, if_false, if_true]

theorem chained (i j : Int) : Chained env genesis [{ suspension with entryID := i }, { search with entryID := j }] := by
  simp only [Chained, suspension, search, hash, sha256_suspended, sha256_searched, and_self]

theorem collisionFree : CollisionFree env (hashed original.rows ++ hashed restored.rows) := by
  have hstrings : ∀ data ∈ hashed original.rows ++ hashed restored.rows,
      data = genesis ++ suspended ∨ data = hashBytes suspendedHash ++ searched := by
    rw [rows_original, rows_restored]
    simp [hashed, suspension, search]
  constructor
  · intro data hdata data' hdata' h
    rcases hstrings data hdata with rfl | rfl <;> rcases hstrings data' hdata' with rfl | rfl
    · rfl
    · rw [sha256_suspended, sha256_searched] at h
      exact absurd h (by decide)
    · rw [sha256_suspended, sha256_searched] at h
      exact absurd h (by decide)
    · rfl
  · intro data hdata
    rcases hstrings data hdata with rfl | rfl
    · rw [sha256_suspended]
      decide
    · rw [sha256_searched]
      decide
end Sample

theorem Table.canonicals_eq_of_tail_restored :
    Sample.original ≠ Sample.restored ∧ Sample.original.canonicals = Sample.restored.canonicals := by
  have differ : Sample.original ≠ Sample.restored := by
    intro h
    have hkeys : Sample.original.keys = Sample.restored.keys := by rw [h]
    exact absurd hkeys (by decide +kernel)
  refine ⟨differ, canonicals_eq_of_tail Sample.collisionFree ?_ ?_ rfl⟩
  · rw [verifyRange_unbounded, walk_ok, Sample.rows_original]
    exact Sample.chained 1 2
  · rw [verifyRange_unbounded, walk_ok, Sample.rows_restored]
    exact Sample.chained 11 15

end LinkMint.Audit
