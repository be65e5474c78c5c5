import LinkMint.Compliance.Kyc

/-!
# The tier in force

A callback reads a record, takes the maximum of its tier and the one granted, and writes it back
over whatever was written in between.
-/

namespace LinkMint.Compliance.Kyc

open LinkMint.Lib

structure Grant where
  tier : Nat
  verifiedAt : Time

def Event.grant? (user : UUID) : Event → Option Grant
  | .kycPassed u _ granted verifiedAt => if u = user then some ⟨granted, verifiedAt⟩ else none
  | .kycFailed _ => none

def grants (d : Tables) (user : UUID) : List Grant := d.outbox.filterMap (Event.grant? user)

def Grant.InForce (kycValidity : Int) (t : Time) (g : Grant) : Prop :=
  g.verifiedAt ≤ t ∧ t ≤ g.verifiedAt + kycValidity

instance (kycValidity : Int) (t : Time) : DecidablePred (Grant.InForce kycValidity t) :=
  fun g => inferInstanceAs (Decidable (g.verifiedAt ≤ t ∧ t ≤ g.verifiedAt + kycValidity))

def highest : List Grant → Nat
  | [] => 0
  | g :: gs => max g.tier (highest gs)

theorem highest_le_iff {gs : List Grant} {n : Nat} : highest gs ≤ n ↔ ∀ g ∈ gs, g.tier ≤ n := by
  induction gs with
  | nil => simp [highest]
  | cons g gs ih => simp only [highest, Nat.max_le, ih, List.forall_mem_cons]

theorem tier_le_highest {gs : List Grant} {g : Grant} (h : g ∈ gs) : g.tier ≤ highest gs :=
  highest_le_iff.mp (Nat.le_refl _) g h

theorem highest_append (gs : List Grant) (g : Grant) : highest (gs ++ [g]) = max (highest gs) g.tier := by
  induction gs with
  | nil => simp [highest]
  | cons g' gs ih => simp only [List.cons_append, highest, ih, Nat.max_assoc]

def tierInForce (kycValidity : Int) (d : Tables) (user : UUID) (t : Time) : Nat :=
  highest ((grants d user).filter fun g => g.InForce kycValidity t)

def Unexpired (kycValidity : Int) (d : Tables) (user : UUID) (t : Time) : Prop :=
  ∀ g ∈ grants d user, g.tier = 0 ∨ ∃ g' ∈ grants d user, g'.InForce kycValidity t ∧ g.tier ≤ g'.tier

instance (kycValidity : Int) (d : Tables) (user : UUID) (t : Time) : Decidable (Unexpired kycValidity d user t) :=
  inferInstanceAs (Decidable (∀ g ∈ grants d user, g.tier = 0 ∨
    ∃ g' ∈ grants d user, g'.InForce kycValidity t ∧ g.tier ≤ g'.tier))

theorem tierInForce_eq {kycValidity : Int} {d : Tables} {user : UUID} {t : Time} (h : Unexpired kycValidity d user t) :
    tierInForce kycValidity d user t = highest (grants d user) := by
  apply Nat.le_antisymm
  · rw [tierInForce, highest_le_iff]
    intro g hg
    exact tier_le_highest (List.mem_filter.mp hg).1
  · rw [highest_le_iff]
    intro g hg
    rcases h g hg with hzero | ⟨g', hg', hforce, hle⟩
    · rw [hzero]
      exact Nat.zero_le _
    · exact Nat.le_trans hle (tier_le_highest (List.mem_filter.mpr ⟨hg', decide_eq_true hforce⟩))

/-- The commit does not lower the tier that is stored at that moment. -/
def NoLoss (r : Request) (ws : List Change) (d : Tables) : Prop :=
  Tables.getTier d r.user ≤ Tables.getTier (applyAll ws d) r.user

instance (r : Request) (ws : List Change) (d : Tables) : Decidable (NoLoss r ws d) :=
  inferInstanceAs (Decidable (Tables.getTier d r.user ≤ Tables.getTier (applyAll ws d) r.user))

def contract : TxContract Ask UUID KycRecordRow Event Unit Request where
  inv d _ := ∀ user, Tables.getTier d user = highest (grants d user)
  does r ws := ∀ x ∈ ws, ∀ k, x.key? = some k → k = r.user
  commits := NoLoss

section
variable {d d' : Tables} {user : UUID} {ws : List Change} {r : Request}

theorem getTier_of_ne (h : ∀ x ∈ ws, ∀ k, x.key? = some k → k = r.user) (hne : user ≠ r.user) :
    Tables.getTier (applyAll ws d) user = Tables.getTier d user := by
  rw [Tables.getTier, Tables.getKycRecord, find?_applyAll_of_ne fun x hx hk => hne (h x hx user hk)]
  rfl

theorem getTier_mono (h : contract.Evolves d d') (user : UUID) : Tables.getTier d user ≤ Tables.getTier d' user := by
  refine h.invariant (I := fun x => Tables.getTier d user ≤ Tables.getTier x user) ?_ (Nat.le_refl _)
  intro n r ws x hx hdoes hcommits _ _
  by_cases hsame : user = r.user
  · subst hsame
    exact Nat.le_trans hx hcommits
  · exact Nat.le_trans hx (Nat.le_of_eq (getTier_of_ne hdoes hsame).symm)

inductive Upserts (user : UUID) (row : KycRecordRow) (d : Tables) : Change → Prop
  | update {loaded : KycRecordRow} (h : loaded.tier ≤ Tables.getTier d user) :
      Upserts user row d (.update user (changes loaded row))
  | insert : Upserts user row d (.insert user row)

variable {row : KycRecordRow}

theorem Upserts.mono {x : Change} (h : Upserts user row d x) (hevolves : contract.Evolves d d') : Upserts user row d' x := by
  cases h with
  | update h => exact .update (Nat.le_trans h (getTier_mono hevolves user))
  | insert => exact .insert

theorem Upserts.key {x : Change} (h : Upserts user row d x) : x.key? = some user := by
  cases h <;> rfl

theorem Upserts.tier {x : Change} (h : Upserts user row d x) {current granted : Nat}
    (hcurrent : current ≤ Tables.getTier d user) (hrow : row.tier = max current granted) (hallowed : x.allowed d = true)
    (hnoLoss : Tables.getTier d user ≤ Tables.getTier (x.apply d) user) :
    Tables.getTier (x.apply d) user = max (Tables.getTier d user) granted := by
  cases h with
  | insert =>
    have hnone : Db.find? d user = none := by simpa [Write.allowed] using hallowed
    have hbefore : Tables.getTier d user = 0 := by simp [Tables.getTier, Tables.getKycRecord, hnone]
    have hafter : Tables.getTier ((Write.insert user row : Change).apply d) user = row.tier := by
      simp [Tables.getTier, Tables.getKycRecord, Write.find?_insert, hnone]
    rw [hafter, hbefore, hrow]
    omega
  | @update loaded hloaded =>
    obtain ⟨record, hrecord⟩ : ∃ record, Db.find? d user = some record := by
      simpa [Write.allowed, Option.isSome_iff_exists] using hallowed
    have hbefore : Tables.getTier d user = record.tier := by simp [Tables.getTier, Tables.getKycRecord, hrecord]
    have hafter : Tables.getTier ((Write.update user (changes loaded row) : Change).apply d) user =
        if row.tier = loaded.tier then record.tier else row.tier := by
      simp [Tables.getTier, Tables.getKycRecord, Write.find?_update, hrecord, changes]
    rw [hafter, hbefore] at hnoLoss
    rw [hbefore] at hcurrent hloaded
    rw [hafter, hbefore]
    split at hnoLoss <;> rename_i hsame
    · rw [if_pos hsame]
      omega
    · rw [if_neg hsame]
      omega

theorem Upserts.outbox {x : Change} (h : Upserts user row d x) : (x.apply d).outbox = d.outbox := by
  cases h <;> rfl

theorem transact_upsert {x : Change} (hx : Upserts user row d x) (events : List Event) (n : Nat) (other : UUID) :
    Tables.getTier (d.transact n (x :: events.map .emit)) other = Tables.getTier (x.apply d) other ∧
      grants (d.transact n (x :: events.map .emit)) other = grants d other ++ events.filterMap (Event.grant? other) := by
  have happly : applyAll (x :: events.map .emit) d = { x.apply d with outbox := (x.apply d).outbox ++ events } :=
    applyAll_emit events (x.apply d)
  rw [Db.transact, happly]
  refine ⟨rfl, ?_⟩
  rw [grants, grants, ← hx.outbox, List.filterMap_append]

theorem highest_upserted {x : Change} (hx : Upserts r.user row d x) {events : List Event} {current granted : Nat}
    (hcurrent : current ≤ Tables.getTier d r.user) (hrow : row.tier = max current granted)
    (hgrants : highest (grants d r.user ++ events.filterMap (Event.grant? r.user)) = max (highest (grants d r.user)) granted)
    (hothers : ∀ e ∈ events, ∀ other, other ≠ r.user → e.grant? other = none)
    (hinv : ∀ user, Tables.getTier d user = highest (grants d user)) (hallowed : x.allowed d = true) (n : Nat)
    (hnoLoss : NoLoss r (x :: events.map .emit) d) (other : UUID) :
    Tables.getTier (d.transact n (x :: events.map .emit)) other =
      highest (grants (d.transact n (x :: events.map .emit)) other) := by
  obtain ⟨htier, hafter⟩ := transact_upsert hx events n other
  rw [htier, hafter]
  by_cases hsame : other = r.user
  · subst hsame
    have hnoLoss' : Tables.getTier d r.user ≤ Tables.getTier (x.apply d) r.user := by
      rw [← htier]
      exact hnoLoss
    rw [hx.tier hcurrent hrow hallowed hnoLoss', hgrants, hinv]
  · have hne : x.key? ≠ some other := by
      rw [hx.key]
      exact fun h => hsame (Option.some.inj h).symm
    have hnone : events.filterMap (Event.grant? other) = [] :=
      List.filterMap_eq_nil_iff.mpr fun e he => hothers e he other hsame
    rw [hnone, List.append_nil, ← hinv, Tables.getTier, Tables.getKycRecord, Write.find?_apply_of_ne hne]
    rfl
end

section
variable {n : Nat} {r : Request} {w : World} {user : UUID}

theorem yields_upsert {existing : Option KycRecordRow} (row : KycRecordRow) (hold : contract.Holding n r [] w)
    (hread : currentTier existing ≤ Tables.getTier w.store.committed user) :
    TxYields backend contract n r (upsertKycRecord user existing row) (fun _ w' => ∃ x, contract.Holding n r [x] w' ∧
      Upserts user row w'.store.committed x ∧ contract.Evolves w.store.committed w'.store.committed) w := by
  cases existing with
  | some loaded =>
    apply TxYields.mono (TxYields.flush hold)
    exact fun _ w₁ h₁ => ⟨_, h₁.1, (Upserts.update hread).mono h₁.2, h₁.2⟩
  | none =>
    apply TxYields.bind (TxYields.query hold)
    rintro found w₁ ⟨hrely, -, -, hfound⟩
    change found = Tables.getKycRecord w₁.store.committed user at hfound
    have hold₁ := hrely.holding hold
    cases found with
    | some loaded =>
      have hloaded : loaded.tier ≤ Tables.getTier w₁.store.committed user := by simp [Tables.getTier, ← hfound]
      apply TxYields.mono (TxYields.flush hold₁)
      exact fun _ w₂ h₂ => ⟨_, h₂.1, (Upserts.update hloaded).mono h₂.2, hrely.grows.trans h₂.2⟩
    | none =>
      apply TxYields.mono (TxYields.flush hold₁)
      exact fun _ w₂ h₂ => ⟨_, h₂.1, .insert, hrely.grows.trans h₂.2⟩

theorem currentTier_getKycRecord (d : Tables) (user : UUID) :
    currentTier (Tables.getKycRecord d user) = Tables.getTier d user := by
  rw [Tables.getTier]
  cases Tables.getKycRecord d user <;> rfl

theorem yields_upsert_commit (events : List Event) (granted : Nat) {existing : Option KycRecordRow} {row : KycRecordRow}
    {x : Change} (hold : contract.Holding n r (x :: events.map .emit) w) (hx : Upserts r.user row w.store.committed x)
    (hread : currentTier existing ≤ Tables.getTier w.store.committed r.user)
    (hrow : row.tier = max (currentTier existing) granted)
    (hgrants : ∀ gs, highest (gs ++ events.filterMap (Event.grant? r.user)) = max (highest gs) granted)
    (hothers : ∀ e ∈ events, ∀ other, other ≠ r.user → e.grant? other = none) :
    TxYields backend contract n r (TxAct.commit : Act Unit) (fun _ _ => True) w := by
  have hdoes : contract.does r (x :: events.map .emit) := by
    intro y hy k hk
    rcases List.mem_cons.mp hy with rfl | hy
    · rw [hx.key] at hk
      exact (Option.some.inj hk).symm
    · obtain ⟨e, -, rfl⟩ := List.mem_map.mp hy
      cases hk
  apply TxYields.mono (TxYields.commit (fun _ => True) hold hdoes ?_)
  · exact fun _ _ _ => trivial
  · intro w₁ _ hrely _ hinv hcommits hallowed
    refine ⟨highest_upserted (hx.mono hrely.grows) (Nat.le_trans hread (getTier_mono hrely.grows _)) hrow
      (hgrants _) hothers hinv (Bool.and_eq_true_iff.mp hallowed).1 n hcommits, trivial⟩

theorem yields_createSession (provider : String) (user : UUID) (tierRequested : Nat)
    (hold : contract.Holding n (.createSession provider user tierRequested) [] w) :
    TxYields backend contract n (.createSession provider user tierRequested) (createSession provider user tierRequested)
      (fun _ _ => True) w := by
  apply TxYields.bind TxYields.require
  rintro _ _ ⟨rfl, -⟩
  apply TxYields.bind (TxYields.query hold)
  rintro existing w₁ ⟨hrely₁, -, -, hexisting⟩
  change existing = Tables.getKycRecord w₁.store.committed user at hexisting
  apply TxYields.bind TxYields.require
  rintro _ _ ⟨rfl, -⟩
  have hold₁ := hrely₁.holding hold
  apply TxYields.bind (TxYields.ask (fun _ => True) hold₁ fun _ _ _ _ _ h _ => ⟨h, trivial⟩)
  rintro started w₂ ⟨hrely₂, -⟩
  cases started with
  | none => exact TxYields.raise
  | some sessionId =>
    have hread : currentTier existing ≤ Tables.getTier w₂.store.committed user := by
      rw [hexisting, currentTier_getKycRecord]
      exact getTier_mono hrely₂.grows user
    apply TxYields.bind (yields_upsert _ (hrely₂.holding hold₁) hread)
    rintro _ w₃ ⟨x, hold₃, hx, hgrows⟩
    apply TxYields.bind (yields_upsert_commit [] 0 hold₃ hx
      (Nat.le_trans hread (getTier_mono hgrows user)) (Nat.max_zero _).symm (fun gs => by simp) (by simp))
    exact fun _ _ _ => TxYields.ret trivial

theorem yields_applyCallback (kycValidity : Int) (provider : String) (user : UUID) (passed : Bool) (tierGranted : Nat)
    (hold : contract.Holding n (.applyCallback provider user passed tierGranted) [] w) :
    TxYields backend contract n (.applyCallback provider user passed tierGranted)
      (applyCallback kycValidity provider user passed tierGranted) (fun _ _ => True) w := by
  apply TxYields.bind (TxYields.query hold)
  rintro existing w₁ ⟨hrely₁, -, -, hexisting⟩
  change existing = Tables.getKycRecord w₁.store.committed user at hexisting
  have hold₁ := hrely₁.holding hold
  have hread₁ : currentTier existing ≤ Tables.getTier w₁.store.committed user :=
    Nat.le_of_eq (by rw [hexisting, currentTier_getKycRecord])
  cases passed with
  | true =>
    apply TxYields.bind (TxYields.ask (fun _ => True) hold₁ fun _ _ _ _ _ h _ => ⟨h, trivial⟩)
    rintro now w₂ ⟨hrely₂, -⟩
    have hread₂ := Nat.le_trans hread₁ (getTier_mono hrely₂.grows user)
    apply TxYields.bind (yields_upsert _ (hrely₂.holding hold₁) hread₂)
    rintro _ w₃ ⟨x, hold₃, hx, hgrows₃⟩
    apply TxYields.bind (TxYields.flush hold₃)
    rintro _ w₄ ⟨hold₄, hgrows₄⟩
    apply TxYields.bind (yields_upsert_commit [.kycPassed user (max (currentTier existing) tierGranted) tierGranted now]
      tierGranted hold₄ (hx.mono hgrows₄) (Nat.le_trans hread₂ (getTier_mono (hgrows₃.trans hgrows₄) user)) rfl
      (fun gs => by simp [Event.grant?, Request.user, highest_append])
      (by simp [Event.grant?, Request.user, eq_comm]))
    exact fun _ _ _ => TxYields.ret trivial
  | false =>
    apply TxYields.bind (yields_upsert _ hold₁ hread₁)
    rintro _ w₂ ⟨x, hold₂, hx, hgrows₂⟩
    apply TxYields.bind (TxYields.flush hold₂)
    rintro _ w₃ ⟨hold₃, hgrows₃⟩
    apply TxYields.bind (yields_upsert_commit [.kycFailed user] 0 hold₃ (hx.mono hgrows₃)
      (Nat.le_trans hread₁ (getTier_mono (hgrows₂.trans hgrows₃) user)) (Nat.max_zero _).symm
      (fun gs => by simp [List.filterMap_cons, Event.grant?]) (by simp [Event.grant?]))
    exact fun _ _ _ => TxYields.ret trivial

theorem yields_evaluate (user : UUID) (hold : contract.Holding n r [] w) :
    TxYields backend contract n r (evaluate user) (fun _ _ => True) w := by
  apply TxYields.bind (TxYields.ask (fun _ => True) hold fun _ _ _ _ _ h _ => ⟨h, trivial⟩)
  rintro _ w₁ ⟨hrely₁, -⟩
  apply TxYields.bind (TxYields.query (hrely₁.holding hold))
  exact fun _ _ _ => TxYields.ret trivial

theorem keeps (kycValidity : Int) : contract.Keeps backend (handle kycValidity) (fun _ _ _ _ => True) where
  stays _ _ _ _ _ _ _ := trivial
  begins n r w _ hold := by
    cases r with
    | createSession provider user tierRequested => exact yields_createSession provider user tierRequested hold
    | applyCallback provider user passed tierGranted =>
      exact yields_applyCallback kycValidity provider user passed tierGranted hold
    | evaluate user => exact yields_evaluate user hold
end

/-- **The tier in force is the best unexpired grant**, in every run whose commits do not lower the tier they find. -/
theorem tier_is_in_force (kycValidity : Int) (moves : List (Move Request (TxChoice Reply) Nat))
    (met : ∀ e ∈ trace (system kycValidity).step { shared := { rest := () } } moves, CommitsMeet NoLoss e.1 e.2)
    (user : UUID) (t : Time)
    (unexpired : Unexpired kycValidity ((system kycValidity).exec { rest := () } moves).shared.store.committed user t) :
    let d := ((system kycValidity).exec { rest := () } moves).shared.store.committed
    Tables.getTier d user = tierInForce kycValidity d user t ∧
      currentTier (Tables.getKycRecord d user) = tierInForce kycValidity d user t := by
  intro d
  have hinv : ∀ user, Tables.getTier d user = highest (grants d user) :=
    ((keeps kycValidity).sound Db.keyed_empty rfl (fun _ => rfl) moves fun e he =>
      TxContract.meets_of_commitsMeet (fun _ _ _ _ => trivial) (met e he)).inv.2
  have htier : Tables.getTier d user = tierInForce kycValidity d user t := by
    rw [hinv, tierInForce_eq unexpired]
  exact ⟨htier, (currentTier_getKycRecord d user).trans htier⟩

namespace Sample
def validity : Int := 365 * 86400

def passes (n : Nat) (tier : Nat) (time : Time) (new : Bool) : List (Move Request (TxChoice Reply) Nat) :=
  [.start (.applyCallback "jumio" 1 true tier), .run n .ok, .run n (.env (.time time))] ++
    (if new then [.run n .ok] else []) ++ [.run n .ok, .run n .ok, .run n .ok]

def renewed : List (Move Request (TxChoice Reply) Nat) := passes 0 2 0 true ++ passes 1 2 20000000 false

def lost : List (Move Request (TxChoice Reply) Nat) :=
  [.start (.applyCallback "jumio" 1 false 0), .run 0 .ok, .run 0 .ok, .run 0 .ok, .run 0 .ok, .run 0 .ok,
    .start (.applyCallback "jumio" 1 true 2), .start (.applyCallback "smile" 1 true 1), .run 1 .ok, .run 2 .ok,
    .run 1 (.env (.time 5)), .run 2 (.env (.time 5)), .run 1 .ok, .run 1 .ok, .run 1 .ok, .run 2 .ok, .run 2 .ok,
    .run 2 .ok]
end Sample

theorem tier_is_in_force_renewed :
    let d := ((system Sample.validity).exec { rest := () } Sample.renewed).shared.store.committed
    Tables.getTier d 1 = tierInForce Sample.validity d 1 40000000 ∧
      currentTier (Tables.getKycRecord d 1) = tierInForce Sample.validity d 1 40000000 :=
  tier_is_in_force Sample.validity Sample.renewed (by decide +kernel) 1 40000000 (by decide +kernel)

/-- A grant of tier 2 counts after it has expired, and a grant of tier 2 is overwritten by one of tier 1. -/
theorem tier_not_in_force :
    let expired := ((system Sample.validity).exec { rest := () } (Sample.passes 0 2 0 true)).shared.store.committed
    let overwritten := ((system Sample.validity).exec { rest := () } Sample.lost).shared.store.committed
    (Tables.getTier expired 1 = 2 ∧ tierInForce Sample.validity expired 1 40000000 = 0) ∧
      Tables.getTier overwritten 1 = 1 ∧ tierInForce Sample.validity overwritten 1 10 = 2 := by
  decide +kernel

end LinkMint.Compliance.Kyc
