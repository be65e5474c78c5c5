import Mathlib.Data.List.Nodup
import LinkMint.Idem.Clients

/-!
# One owner at a time

While a caller owns its key its reservation is in Redis, so a `SET NX` that succeeds finds no
owner. That is all of the Go store's way to acquire a key.
-/

namespace LinkMint.Idem

open LinkMint.Lib

variable (D : Deployment)

def Permitted (q : Request) (t : Phase) : Op → Prop
  | .setNX key value => (∀ k, t ≠ .owning k) ∧ key = D.rkey q ∧ value = D.codec.text (pending q.fp)
  | .get key => (∀ k, t ≠ .owning k) ∧ key = D.rkey q
  | .set .reserve key value =>
    D.client = .python ∧ t = .missing key ∧ value = D.codec.text (pending q.fp)
  | .set .complete key value =>
    t = .owning key ∧ key = D.rkey q ∧ ∃ status body, value = D.codec.text (completed q.fp status body)
  | .del key | .work key => t = .owning key

def protocol : Protocol Op Op.Answer Request Phase where
  allowed := Permitted D
  next := Phase.next

theorem tracked : (protocol D).Tracked (system D) World.phase where
  own {n q w i c a w'} h := by
    obtain ⟨⟨a', data⟩, -, heq⟩ := Option.map_eq_some_iff.mp h
    cases heq
    exact Function.update_self _ _ _
  other {n q w i c a w' m} h hm := by
    obtain ⟨⟨a', data⟩, -, heq⟩ := Option.map_eq_some_iff.mp h
    cases heq
    exact Function.update_of_ne hm _ _
  drift w d n := by
    cases d
    rfl

def Begun (q : Request) (a : BeginResult) (t : Phase) : Prop :=
  match a with
  | .owned => t = .owning (D.rkey q)
  | .cached status body => ∃ raw, t = .read (D.rkey q) raw ∧ replay D.codec q.fp raw = .cached status body
  | .conflict _ | .backend _ => True

variable {D}

theorem begun_replay (q : Request) (raw : String) : Begun D q (replay D.codec q.fp raw) (.read (D.rkey q) raw) := by
  cases h : replay D.codec q.fp raw with
  | cached status body => exact ⟨raw, rfl, h⟩
  | conflict c => trivial
  | backend m => trivial
  | owned =>
    unfold replay at h
    split at h
    · cases h
    · split at h
      · cases h
      · split at h <;> cases h

theorem follows_acquire (q : Request) {t : Phase} (ht : ∀ k, t ≠ .owning k) (attempts : Nat) :
    (Go.acquire redis D.codec (D.rkey q) q.fp attempts).Follows (protocol D) q (Begun D q) t := by
  induction attempts generalizing t with
  | zero => trivial
  | succ attempts ih =>
    refine ⟨⟨ht, rfl, rfl⟩, fun a => ?_⟩
    rcases a with m | _ | _
    · trivial
    · refine ⟨⟨fun k => Phase.noConfusion, rfl⟩, fun a => ?_⟩
      rcases a with m | _ | raw
      · trivial
      · exact ih fun k => Phase.noConfusion
      · exact begun_replay q raw
    · exact rfl

theorem follows_begin (q : Request) : (begin D q).Follows (protocol D) q (Begun D q) .idle := by
  unfold begin
  cases hclient : D.client with
  | go => exact follows_acquire q (fun k => Phase.noConfusion) 2
  | python =>
    refine ⟨⟨fun k => Phase.noConfusion, rfl, rfl⟩, fun a => ?_⟩
    rcases a with m | _ | _
    · trivial
    · refine ⟨⟨fun k => Phase.noConfusion, rfl⟩, fun a => ?_⟩
      rcases a with m | _ | raw
      · trivial
      · refine ⟨⟨hclient, rfl, rfl⟩, fun a => ?_⟩
        rcases a with m | _
        · trivial
        · exact rfl
      · exact begun_replay q raw
    · exact rfl

variable (D) in
def Replayed (q : Request) (a : Reply) (t : Phase) : Prop :=
  ∀ status body, a = .done (.cached status body) → Begun D q (.cached status body) t

theorem follows_handle (q : Request) : (handle D q).Follows (protocol D) q (Replayed D q) .idle := by
  refine (follows_begin q).bind fun a t hbegun => ?_
  cases a with
  | owned =>
    cases (hbegun : t = .owning (D.rkey q))
    refine ⟨rfl, fun outcome => ?_⟩
    cases outcome with
    | complete status body =>
      refine ⟨⟨rfl, rfl, status, body, rfl⟩, fun a => ?_⟩
      intro status body h
      cases h
    | release =>
      refine ⟨rfl, fun a => ?_⟩
      intro status body h
      cases h
    | crash =>
      intro status body h
      cases h
  | cached status body =>
    intro status' body' h
    cases h
    exact hbegun
  | conflict c =>
    intro status body h
    cases h
  | backend m =>
    intro status body h
    cases h

variable (D) in
def Written (stored : List (Request × String)) (key value : String) : Prop :=
  (∃ fp, value = D.codec.text (pending fp)) ∨ ∃ q, (q, value) ∈ stored ∧ D.rkey q = key

variable {key : String}

theorem Written.mono {stored stored' : List (Request × String)} {value : String} (h : Written D stored key value)
    (hsub : stored ⊆ stored') : Written D stored' key value :=
  h.imp_right fun ⟨q, hmem, hkey⟩ => ⟨q, hsub hmem, hkey⟩

variable (D) in
structure Exclusive (w : World) : Prop where
  unique : ∀ n m key, w.phase n = .owning key → w.phase m = .owning key → n = m
  held : ∀ n key, w.phase n = .owning key → (w.data key).isSome = true
  values : ∀ key value, w.data key = some value → Written D w.stored key value
  reads : ∀ n key value, w.phase n = .read key value → Written D w.stored key value
  stored : ∀ q value, (q, value) ∈ w.stored → ∃ status body, value = D.codec.text (completed q.fp status body)

theorem Exclusive.init : Exclusive D {} where
  unique _ _ _ h := by cases h
  held _ _ h := by cases h
  values _ _ h := by cases h
  reads _ _ _ h := by cases h
  stored _ _ h := by cases h

section Step

variable {w : World} {n : Nat} {t : Phase} {data : String → Option String}
  {stored : List (Request × String)}

theorem Exclusive.step (h : Exclusive D w) (hstored : w.stored ⊆ stored)
    (hown : ∀ key, t = .owning key → (data key).isSome = true ∧ ∀ m, m ≠ n → w.phase m ≠ .owning key)
    (hheld : ∀ m key, m ≠ n → w.phase m = .owning key → (data key).isSome = true)
    (hvalues : ∀ key value, data key = some value → Written D stored key value)
    (hread : ∀ key value, t = .read key value → Written D stored key value)
    (hcompleted : ∀ q value, (q, value) ∈ stored → ∃ status body, value = D.codec.text (completed q.fp status body)) :
    Exclusive D { data, phase := Function.update w.phase n t, stored } where
  unique m m' key hm hm' := by
    dsimp only at hm hm'
    by_cases hmn : m = n
    · subst hmn
      rw [Function.update_self] at hm
      by_cases hmn' : m' = m
      · exact hmn'.symm
      · rw [Function.update_of_ne hmn'] at hm'
        exact absurd hm' ((hown key hm).2 m' hmn')
    · rw [Function.update_of_ne hmn] at hm
      by_cases hmn' : m' = n
      · subst hmn'
        rw [Function.update_self] at hm'
        exact absurd hm ((hown key hm').2 m hmn)
      · rw [Function.update_of_ne hmn'] at hm'
        exact h.unique m m' key hm hm'
  held m key hm := by
    dsimp only at hm ⊢
    by_cases hmn : m = n
    · subst hmn
      rw [Function.update_self] at hm
      exact (hown key hm).1
    · rw [Function.update_of_ne hmn] at hm
      exact hheld m key hmn hm
  values := hvalues
  reads m key value hm := by
    dsimp only at hm
    by_cases hmn : m = n
    · subst hmn
      rw [Function.update_self] at hm
      exact hread key value hm
    · rw [Function.update_of_ne hmn] at hm
      exact (h.reads m key value hm).mono hstored
  stored := hcompleted

theorem isSome_update {key value k : String} (h : (w.data k).isSome = true) :
    (Function.update w.data key (some value) k).isSome = true := by
  by_cases hk : k = key
  · subst hk
    rw [Function.update_self]
    rfl
  · rw [Function.update_of_ne hk]
    exact h

theorem written_update (h : Exclusive D w) (hsub : w.stored ⊆ stored) {key value : String}
    (hw : Written D stored key value) : ∀ k v, Function.update w.data key (some value) k = some v → Written D stored k v := by
  intro k v hkv
  by_cases hk : k = key
  · subst hk
    rw [Function.update_self] at hkv
    cases hkv
    exact hw
  · rw [Function.update_of_ne hk] at hkv
    exact (h.values k v hkv).mono hsub

theorem Exclusive.look (h : Exclusive D w) (hown : ∀ key, t = .owning key → w.phase n = .owning key)
    (hread : ∀ key value, t = .read key value → w.data key = some value) :
    Exclusive D { data := w.data, phase := Function.update w.phase n t, stored := w.stored } := by
  refine h.step (fun _ hq => hq) (fun key ht => ?_) (fun m key _ hm => h.held m key hm) h.values
    (fun key value ht => h.values key value (hread key value ht)) h.stored
  refine ⟨h.held n key (hown key ht), fun m hm hphase => ?_⟩
  exact hm (h.unique m n key hphase (hown key ht))

theorem Exclusive.reserve (h : Exclusive D w) {key fp : String} (hnone : w.data key = none)
    (ht : t = .owning key ∨ t = .idle) :
    Exclusive D { data := Function.update w.data key (some (D.codec.text (pending fp))),
                  phase := Function.update w.phase n t, stored := w.stored } := by
  refine h.step (fun _ hq => hq) (fun k hk => ?_) (fun m k _ hm => isSome_update (h.held m k hm))
    (written_update h (fun _ hq => hq) (.inl ⟨fp, rfl⟩)) (fun k v hk => ?_) h.stored
  · rcases ht with rfl | rfl
    · cases hk
      refine ⟨by rw [Function.update_self]; rfl, fun m _ hm => ?_⟩
      have hsome := h.held m key hm
      rw [hnone] at hsome
      cases hsome
    · cases hk
  · rcases ht with rfl | rfl <;> cases hk

theorem Exclusive.store (h : Exclusive D w) (q : Request) (status : Int) (body : String) :
    Exclusive D { data := Function.update w.data (D.rkey q) (some (D.codec.text (completed q.fp status body))),
                  phase := Function.update w.phase n .idle,
                  stored := w.stored ++ [(q, D.codec.text (completed q.fp status body))] } := by
  have hsub := List.subset_append_left w.stored [(q, D.codec.text (completed q.fp status body))]
  refine h.step hsub (fun k hk => nomatch hk) (fun m k _ hm => isSome_update (h.held m k hm))
    (written_update h hsub (.inr ⟨q, List.mem_append_right _ List.mem_cons_self, rfl⟩))
    (fun k v hk => nomatch hk) (fun q' v hmem => ?_)
  rcases List.mem_append.mp hmem with hmem | hmem
  · exact h.stored q' v hmem
  · cases List.mem_singleton.mp hmem
    exact ⟨status, body, rfl⟩

theorem Exclusive.erase (h : Exclusive D w) {key : String} (hfree : ∀ m, m ≠ n → w.phase m ≠ .owning key) :
    Exclusive D { data := Function.update w.data key none, phase := Function.update w.phase n .idle,
                  stored := w.stored } := by
  refine h.step (fun _ hq => hq) (fun k hk => nomatch hk) (fun m k hm hphase => ?_) (fun k v hkv => ?_)
    (fun k v hk => nomatch hk) h.stored
  · have hk : k ≠ key := by
      rintro rfl
      exact hfree m hm hphase
    rw [Function.update_of_ne hk]
    exact h.held m k hphase
  · by_cases hk : k = key
    · subst hk
      rw [Function.update_self] at hkv
      cases hkv
    · rw [Function.update_of_ne hk] at hkv
      exact h.values k v hkv
end Step

def Vacant (w : World) : Op → Prop
  | .set .reserve key _ => w.data key = none
  | _ => True

instance (w : World) (i : Op) : Decidable (Vacant w i) :=
  match i with
  | .set .reserve key _ => inferInstanceAs (Decidable (w.data key = none))
  | .set .complete _ _ | .setNX _ _ | .get _ | .del _ | .work _ => .isTrue trivial

variable {c : Choice}

theorem command_cases {α : Type} {old data : String → Option String} {run : α × (String → Option String)}
    {a : Except String α} (h : command old run c = some (a, data)) :
    (c = .ok ∧ a = .ok run.1 ∧ data = run.2) ∨ (∃ m, c = .failed m ∧ a = .error m ∧ data = old) ∨
    (∃ m, c = .lost m ∧ a = .error m ∧ data = run.2) := by
  cases c with
  | ok =>
    cases h
    exact .inl ⟨rfl, rfl, rfl⟩
  | failed m =>
    cases h
    exact .inr (.inl ⟨m, rfl, rfl, rfl⟩)
  | lost m =>
    cases h
    exact .inr (.inr ⟨m, rfl, rfl, rfl⟩)
  | worked outcome => cases h

variable {q : Request}

theorem Exclusive.setNX {w w' : World} {n : Nat} {a : Except String Bool} (h : Exclusive D w)
    (hs : serve n q w (.setNX key (D.codec.text (pending q.fp))) c = some (a, w')) : Exclusive D w' := by
  obtain ⟨⟨a', data⟩, hexec, heq⟩ := Option.map_eq_some_iff.mp hs
  cases heq
  by_cases hsome : (w.data key).isSome = true
  · simp only [execute, if_pos hsome] at hexec
    rcases command_cases hexec with ⟨rfl, rfl, rfl⟩ | ⟨m, rfl, rfl, rfl⟩ | ⟨m, rfl, rfl, rfl⟩
    · exact h.look (fun _ ht => nomatch ht) (fun _ _ ht => nomatch ht)
    · exact h.look (fun _ ht => nomatch ht) (fun _ _ ht => nomatch ht)
    · exact h.look (fun _ ht => nomatch ht) (fun _ _ ht => nomatch ht)
  · have hnone : w.data key = none := Option.not_isSome_iff_eq_none.mp hsome
    simp only [execute, if_neg hsome] at hexec
    rcases command_cases hexec with ⟨rfl, rfl, rfl⟩ | ⟨m, rfl, rfl, rfl⟩ | ⟨m, rfl, rfl, rfl⟩
    · exact h.reserve hnone (.inl rfl)
    · exact h.look (fun _ ht => nomatch ht) (fun _ _ ht => nomatch ht)
    · exact h.reserve hnone (.inr rfl)

theorem Exclusive.get {w w' : World} {n : Nat} {a : Except String (Option String)} (h : Exclusive D w)
    (hs : serve n q w (.get key) c = some (a, w')) : Exclusive D w' := by
  obtain ⟨⟨a', data⟩, hexec, heq⟩ := Option.map_eq_some_iff.mp hs
  cases heq
  rcases command_cases hexec with ⟨rfl, rfl, rfl⟩ | ⟨m, rfl, rfl, rfl⟩ | ⟨m, rfl, rfl, rfl⟩
  · cases hdata : w.data key with
    | none => exact h.look (fun _ ht => nomatch ht) (fun _ _ ht => nomatch ht)
    | some raw =>
      refine h.look (fun _ ht => nomatch ht) (fun k v ht => ?_)
      cases ht
      exact hdata
  · exact h.look (fun _ ht => nomatch ht) (fun _ _ ht => nomatch ht)
  · exact h.look (fun _ ht => nomatch ht) (fun _ _ ht => nomatch ht)

theorem Exclusive.set {w w' : World} {n : Nat} {purpose : Purpose} {value : String} {a : Except String Unit}
    (h : Exclusive D w) (hperm : Permitted D q (w.phase n) (.set purpose key value))
    (hvacant : Vacant w (.set purpose key value)) (hs : serve n q w (.set purpose key value) c = some (a, w')) : Exclusive D w' := by
  obtain ⟨⟨a', data⟩, hexec, heq⟩ := Option.map_eq_some_iff.mp hs
  cases heq
  cases purpose with
  | reserve =>
    obtain ⟨-, -, rfl⟩ := hperm
    rcases command_cases hexec with ⟨rfl, rfl, rfl⟩ | ⟨m, rfl, rfl, rfl⟩ | ⟨m, rfl, rfl, rfl⟩
    · exact h.reserve hvacant (.inl rfl)
    · exact h.look (fun _ ht => nomatch ht) (fun _ _ ht => nomatch ht)
    · exact h.reserve hvacant (.inr rfl)
  | complete =>
    obtain ⟨-, rfl, status, body, rfl⟩ := hperm
    rcases command_cases hexec with ⟨rfl, rfl, rfl⟩ | ⟨m, rfl, rfl, rfl⟩ | ⟨m, rfl, rfl, rfl⟩
    · exact h.store q status body
    · exact h.look (fun _ ht => nomatch ht) (fun _ _ ht => nomatch ht)
    · exact h.store q status body

theorem Exclusive.del {w w' : World} {n : Nat} {a : Except String Unit} (h : Exclusive D w)
    (hown : w.phase n = .owning key) (hs : serve n q w (.del key) c = some (a, w')) : Exclusive D w' := by
  obtain ⟨⟨a', data⟩, hexec, heq⟩ := Option.map_eq_some_iff.mp hs
  cases heq
  have hfree : ∀ m, m ≠ n → w.phase m ≠ .owning key := fun m hm hphase => hm (h.unique m n key hphase hown)
  rcases command_cases hexec with ⟨rfl, rfl, rfl⟩ | ⟨m, rfl, rfl, rfl⟩ | ⟨m, rfl, rfl, rfl⟩
  · exact h.erase hfree
  · exact h.look (fun _ ht => nomatch ht) (fun _ _ ht => nomatch ht)
  · exact h.erase hfree

theorem Exclusive.work {w w' : World} {n : Nat} {a : Outcome} (h : Exclusive D w) (hown : w.phase n = .owning key)
    (hs : serve n q w (.work key) c = some (a, w')) : Exclusive D w' := by
  obtain ⟨⟨a', data⟩, hexec, heq⟩ := Option.map_eq_some_iff.mp hs
  cases heq
  have hnext : ∀ k, (w.phase n).next (.work key) a = .owning k → w.phase n = .owning k := by
    intro k hk
    cases a with
    | crash => cases hk
    | complete status body => exact hk
    | release => exact hk
  have hread : ∀ k v, (w.phase n).next (.work key) a ≠ .read k v := by
    intro k v hk
    rw [hown] at hk
    cases a <;> cases hk
  cases c with
  | worked outcome =>
    cases hexec
    exact h.look hnext (fun k v hk => absurd hk (hread k v))
  | ok => cases hexec
  | failed m => cases hexec
  | lost m => cases hexec

theorem Exclusive.serve {w w' : World} {n : Nat} {i : Op} {a : i.Answer} (h : Exclusive D w)
    (hperm : Permitted D q (w.phase n) i) (hvacant : Vacant w i) (hs : Idem.serve n q w i c = some (a, w')) : Exclusive D w' := by
  cases i with
  | setNX key value =>
    obtain ⟨-, -, rfl⟩ := hperm
    exact h.setNX hs
  | set purpose key value => exact h.set hperm hvacant hs
  | get key => exact h.get hs
  | del key => exact h.del hperm hs
  | work key => exact h.work hperm hs

def Unexpired (c : Config Op Op.Answer Request World Reply) : Move Request Choice Drift → Prop
  | .drift (.expire key) => ∀ n < c.procs.length, c.shared.phase n ≠ .owning key
  | _ => True

instance (c : Config Op Op.Answer Request World Reply) (m : Move Request Choice Drift) : Decidable (Unexpired c m) :=
  match m with
  | .drift (.expire key) => inferInstanceAs (Decidable (∀ n < c.procs.length, c.shared.phase n ≠ .owning key))
  | .start _ | .run _ _ => .isTrue trivial

def Quiet (w : World) : Drift → Prop
  | .expire key => ∀ n, w.phase n ≠ .owning key

theorem Exclusive.expire {w : World} (h : Exclusive D w) (hquiet : Quiet w (.expire key)) :
    Exclusive D (drift w (.expire key)) where
  unique := h.unique
  held n k hphase := by
    have hk : k ≠ key := by
      rintro rfl
      exact hquiet n hphase
    show (Function.update w.data key none k).isSome = true
    rw [Function.update_of_ne hk]
    exact h.held n k hphase
  values k v hkv := by
    by_cases hk : k = key
    · subst hk
      simp [drift] at hkv
    · simp only [drift, Function.update_of_ne hk] at hkv
      exact h.values k v hkv
  reads := h.reads
  stored := h.stored

theorem following (moves : List (Move Request Choice Drift)) :
    Following (protocol D) World.phase .idle (Replayed D) ((system D).exec {} moves) :=
  System.follows (tracked D) follows_handle (fun _ => rfl) moves

theorem exclusive {moves : List (Move Request Choice Drift)}
    (unexpired : ∀ e ∈ trace (system D).step { shared := {} } moves, Unexpired e.1 e.2)
    (vacant : ∀ e ∈ trace (system D).step { shared := {} } moves,
      Allowed (fun n q w i _ => Permitted D q (w.phase n) i → Vacant w i) e.1 e.2) :
    Exclusive D ((system D).exec {} moves).shared := by
  have hserved : ∀ n q w i c a w', Exclusive D w → Permitted D q (w.phase n) i ∧ Vacant w i →
      (system D).serve n q w i c = some (a, w') → Exclusive D w' :=
    fun n q w i c a w' h hperm hs => h.serve hperm.1 hperm.2 hs
  have hdrifts : ∀ w d, Exclusive D w → Quiet w d → Exclusive D ((system D).drift w d) := by
    intro w d h hquiet
    cases d with
    | expire key => exact h.expire hquiet
  refine (system D).calm_invariant hserved hdrifts Exclusive.init moves ?_
  rintro ⟨c, m⟩ he
  have hfollowing := System.following_of_mem (tracked D) follows_handle (fun _ => rfl) he
  refine ⟨?_, ?_⟩
  · cases m with
    | start q => trivial
    | drift d => trivial
    | run n x =>
      intro q i k hn
      have hperm := hfollowing.allowed (.run n x : Move Request Choice Drift) q i k hn
      exact ⟨hperm, vacant _ he q i k hn hperm⟩
  · cases m with
    | start q => trivial
    | run n x => trivial
    | drift d =>
      cases d with
      | expire key =>
        intro n
        by_cases hn : n < c.procs.length
        · exact unexpired _ he n hn
        · rw [hfollowing.fresh n (Nat.not_lt.mp hn)]
          exact Phase.noConfusion

def Owns (c : Config Op Op.Answer Request World Reply) (n : Nat) (rkey : String) : Prop :=
  c.next? n = some (.work rkey) ∨ (∃ value, c.next? n = some (.set .complete rkey value)) ∨ c.next? n = some (.del rkey)

theorem Owns.phase {c : Config Op Op.Answer Request World Reply} {n : Nat} {rkey : String}
    (h : Owns c n rkey) (hfollowing : Following (protocol D) World.phase .idle (Replayed D) c) :
    c.shared.phase n = .owning rkey := by
  rcases h with h | ⟨value, h⟩ | h
  · obtain ⟨q, hperm⟩ := hfollowing.next h
    exact hperm
  · obtain ⟨q, hperm⟩ := hfollowing.next h
    exact hperm.1
  · obtain ⟨q, hperm⟩ := hfollowing.next h
    exact hperm

theorem Exclusive.replayed {w : World} (h : Exclusive D w) {n : Nat} {status : Int} {body : String}
    (hbegun : Begun D q (.cached status body) (w.phase n)) :
    ∃ q' sent, (q', D.codec.text (completed q.fp status sent)) ∈ w.stored ∧ D.rkey q' = D.rkey q ∧
      q'.fp = q.fp ∧ body = D.codec.compact sent := by
  obtain ⟨raw, hphase, hreplay⟩ := hbegun
  unfold replay at hreplay
  split at hreplay
  · cases hreplay
  · next rec hrec =>
    split at hreplay
    · cases hreplay
    · next hfp =>
      have hfp : rec.fp = q.fp := Decidable.not_not.mp hfp
      split at hreplay
      · next hstate =>
        cases hreplay
        rcases h.reads n _ _ hphase with ⟨fp, rfl⟩ | ⟨q', hmem, hkey⟩
        · rw [D.codec.unmarshal_text _ hrec] at hstate
          cases hstate
        · obtain ⟨status', sent, rfl⟩ := h.stored q' raw hmem
          have heq := D.codec.unmarshal_text _ hrec
          rw [heq] at hfp ⊢
          have hfp : q'.fp = q.fp := hfp
          rw [hfp] at hmem
          exact ⟨q', sent, hmem, hkey, hfp, rfl⟩
      · cases hreplay

section Stores

variable (service : String) (codec : Codec)

/-- The Go store: at most one caller owns a key at a time, and a replayed response was stored by a
    `Complete` with the same key and fingerprint. -/
theorem go_exclusive_ownership (moves : List (Move Request Choice Drift))
    (unexpired : ∀ e ∈ trace (system { client := .go, service, codec }).step { shared := {} } moves,
      Unexpired e.1 e.2) :
    let D : Deployment := { client := .go, service, codec }
    let c := (system D).exec {} moves
    (∀ n m rkey, Owns c n rkey → Owns c m rkey → n = m) ∧
    ∀ n q status body, c.returned? n = some (q, .done (.cached status body)) →
      ∃ q' sent, (q', codec.text (completed q.fp status sent)) ∈ c.shared.stored ∧ D.rkey q' = D.rkey q ∧
        q'.fp = q.fp ∧ body = codec.compact sent := by
  intro D c
  have hfollowing := following (D := D) moves
  have hexclusive : Exclusive D c.shared := by
    refine exclusive unexpired ?_
    rintro ⟨c, m⟩ -
    cases m with
    | start q => trivial
    | drift d => trivial
    | run n x =>
      rintro q i k - hperm
      -- only Python's `begin` reserves without `NX`
      cases i with
      | set purpose key value =>
        cases purpose with
        | reserve => cases hperm.1
        | complete => trivial
      | setNX | get | del | work => trivial
  refine ⟨fun n m rkey hn hm => ?_, fun n q status body hret => ?_⟩
  · exact hexclusive.unique n m rkey (hn.phase hfollowing) (hm.phase hfollowing)
  · have hpost := hfollowing.procs n q _ (Config.returned?_eq_some hret)
    exact hexclusive.replayed (hpost status body rfl)

/-- The Python store: at most one caller owns a key at a time, if every reservation without `NX` finds the
    key still absent. -/
theorem python_exclusive_ownership (moves : List (Move Request Choice Drift))
    (unexpired : ∀ e ∈ trace (system { client := .python, service, codec }).step { shared := {} } moves,
      Unexpired e.1 e.2)
    (vacant : ∀ e ∈ trace (system { client := .python, service, codec }).step { shared := {} } moves,
      Allowed (fun _ _ w i _ => Vacant w i) e.1 e.2) :
    let c := (system { client := .python, service, codec }).exec {} moves
    ∀ n m rkey, Owns c n rkey → Owns c m rkey → n = m := by
  intro c n m rkey hn hm
  let D : Deployment := { client := .python, service, codec }
  have hfollowing := following (D := D) moves
  have hexclusive : Exclusive D c.shared := by
    refine exclusive unexpired ?_
    rintro ⟨c, m⟩ he
    cases m with
    | start q => trivial
    | drift d => trivial
    | run n x => exact fun q i k hn _ => vacant _ he q i k hn
  exact hexclusive.unique n m rkey (hn.phase hfollowing) (hm.phase hfollowing)
end Stores

namespace Sample
def body : String := "\x7b\"pl_id\":\"0x01\"\x7d"

def codecOf (table : List (Record × String)) (hnodup : (table.map Prod.snd).Nodup)
    (hempty : "" ∉ table.map Prod.snd) : Codec where
  marshal r := table.lookup r
  unmarshal s := (table.find? fun e => e.2 = s).map Prod.fst
  compact := id
  unmarshal_marshal r s h := by
    obtain ⟨l₁, l₂, hsplit, -⟩ := List.lookup_eq_some_iff.mp h
    have hmem : (r, s) ∈ table := hsplit ▸ List.mem_append_right _ List.mem_cons_self
    cases hfind : table.find? fun e => e.2 = s with
    | none => exact absurd (decide_eq_true rfl) (List.find?_eq_none.mp hfind (r, s) hmem)
    | some e =>
      have htext : e.2 = s := by simpa using List.find?_some hfind
      have heq : e = (r, s) := List.inj_on_of_nodup_map hnodup (List.mem_of_find?_eq_some hfind) hmem htext
      rw [heq]
      rfl
  unmarshal_empty := by
    rw [Option.map_eq_none_iff, List.find?_eq_none]
    intro e he htext
    exact hempty (List.mem_map.mpr ⟨e, he, by simpa using htext⟩)

def goJSON : Codec :=
  codecOf
    [(pending "f1", "\x7b\"state\":\"pending\",\"fp\":\"f1\"\x7d"), (completed "f1" 201 body,
        "\x7b\"state\":\"completed\",\"fp\":\"f1\",\"status\":201,\"body\":\x7b\"pl_id\":\"0x01\"\x7d\x7d")]
    (by decide +kernel) (by decide +kernel)

def pythonJSON : Codec :=
  codecOf [(pending "f1", "\x7b\"state\": \"pending\", \"fp\": \"f1\"\x7d")] (by decide +kernel) (by decide +kernel)

def request : Request := { route := "create", key := "k1", fp := "f1" }

def reserved : List (Move Request Choice Drift) := [.start request, .run 0 .ok]

def replayed : List (Move Request Choice Drift) :=
  [.run 0 (.worked (.complete 201 body)), .run 0 .ok, .start request, .run 1 .ok, .run 1 .ok,
    .drift (.expire "idem:svc:create:k1")]

def released : List (Move Request Choice Drift) :=
  [.start request, .run 1 .ok, .run 0 (.worked .release), .run 0 .ok, .run 1 .ok]

def overtaken : List (Move Request Choice Drift) := [.start request, .run 2 .ok, .run 1 .ok]

def taken : List (Move Request Choice Drift) := [.run 1 .ok]
end Sample

open Sample in
/-- Two callers of the Python store own one key. -/
theorem two_owners :
    let c := (system { client := .python, service := "svc", codec := pythonJSON }).exec {} (reserved ++ released ++ overtaken)
    c.next? 1 = some (.work "idem:svc:create:k1") ∧ c.next? 2 = some (.work "idem:svc:create:k1") := by
  decide +kernel

open Sample in
theorem go_exclusive_replayed : let D : Deployment := { client := .go, service := "svc", codec := goJSON }
    let c := (system D).exec {} (reserved ++ replayed)
    (∀ n m rkey, Owns c n rkey → Owns c m rkey → n = m) ∧
    c.returned? 1 = some (request, .done (.cached 201 body)) ∧
      ∃ q' sent, (q', goJSON.text (completed "f1" 201 sent)) ∈ c.shared.stored ∧
        D.rkey q' = "idem:svc:create:k1" ∧ q'.fp = "f1" ∧ body = goJSON.compact sent := by
  intro D c
  have h := go_exclusive_ownership "svc" goJSON (reserved ++ replayed) (by decide +kernel)
  have hreturned : c.returned? 1 = some (request, .done (.cached 201 body)) := by decide +kernel
  exact ⟨h.1, hreturned, h.2 1 request 201 body hreturned⟩

open Sample in
/-- The second caller finds the key still absent, and is its only owner. -/
theorem python_exclusive_released :
    let c := (system { client := .python, service := "svc", codec := pythonJSON }).exec {} (reserved ++ released ++ taken)
    Owns c 1 "idem:svc:create:k1" ∧ ∀ n m rkey, Owns c n rkey → Owns c m rkey → n = m := by
  intro c
  refine ⟨.inl (by decide +kernel), ?_⟩
  exact python_exclusive_ownership "svc" pythonJSON (reserved ++ released ++ taken) (by decide +kernel)
    (by decide +kernel)

end LinkMint.Idem
