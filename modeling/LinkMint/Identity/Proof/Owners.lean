import LinkMint.Identity.Orgs

/-!
# Who owns an organisation

`removeMember` counts the owners in one statement and deletes a membership in another, and
nothing keeps the rows it has counted.
-/

namespace LinkMint.Identity.Orgs

open LinkMint.Lib

def Owned (d : Tables) : Prop :=
  ∀ org, (Db.find? d (.org org)).isSome = true → ∃ user, Tables.getMembership d org user = some .owner

/-- A removal that commits does not take the last owner, by the rows committed at that moment. -/
def KeepsOwner : Request → List (Write Key Row Event) → Tables → Prop
  | .removeMember _ org target, _, d =>
      ¬ (Tables.getMembership d org target = some .owner ∧ Tables.countOwners d org ≤ 1)
  | _, _, _ => True

instance : ∀ r ws d, Decidable (KeepsOwner r ws d)
  | .removeMember _ org target, _, d =>
      inferInstanceAs (Decidable (¬ (Tables.getMembership d org target = some .owner ∧ Tables.countOwners d org ≤ 1)))
  | .create _ _, _, _ | .addMember _ _ _ _ _, _, _ => .isTrue trivial

def contract : TxContract Ask Key Row Event Unit Request where
  inv d _ := Owned d
  does _ _ := True
  commits := KeepsOwner

section
variable {d : Tables} {org user target : UUID} {role : Role}

theorem getMembership_eq_some :
    Tables.getMembership d org user = some role ↔ Db.find? d (.membership org user) = some (.membership role) := by
  rw [Tables.getMembership]
  split
  · rename_i found h
    simp [h]
  · rename_i h
    constructor
    · intro hnone
      cases hnone
    · intro hsome
      exact absurd hsome (h role)

theorem isOwnerRow_iff {x : Key × Row} :
    Tables.isOwnerRow org x = true ↔ ∃ user, x = (.membership org user, .membership .owner) := by
  obtain ⟨k, r⟩ := x
  cases k <;> cases r <;> simp [Tables.isOwnerRow]

theorem exists_other_owner (hkeyed : Db.Keyed d) (h : 1 < Tables.countOwners d org) (target : UUID) :
    ∃ user, user ≠ target ∧ Tables.getMembership d org user = some .owner := by
  by_contra hnone
  have hall : ∀ x ∈ d.rows.filter (Tables.isOwnerRow org), x = (.membership org target, .membership .owner) := by
    intro x hx
    obtain ⟨hmem, howner⟩ := List.mem_filter.mp hx
    obtain ⟨user, rfl⟩ := isOwnerRow_iff.mp howner
    have hfound := getMembership_eq_some.mpr (hkeyed.find?_of_mem hmem)
    by_cases hu : user = target
    · rw [hu]
    · exact absurd ⟨user, hu, hfound⟩ hnone
  have hnodup : (d.rows.filter (Tables.isOwnerRow org)).Nodup := (List.Nodup.of_map _ hkeyed).filter _
  rw [List.eq_replicate_of_mem hall, List.nodup_replicate] at hnodup
  exact absurd h (Nat.not_lt.mpr hnodup)

theorem getMembership_applyAll {ws : List (Write Key Row Event)}
    (hne : ∀ x ∈ ws, x.key? ≠ some (.membership org user)) (h : Tables.getMembership d org user = some role) :
    Tables.getMembership (applyAll ws d) org user = some role := by
  rw [getMembership_eq_some, find?_applyAll_of_ne hne]
  exact getMembership_eq_some.mp h

theorem owned_create (h : Owned d) (type : OrgType) (creator : UUID)
    (hnew : allowedAll [.insert (.org org) (.org type creator), .insert (.membership org creator) (.membership .owner),
      .emit (.orgCreated org type)] d = true) :
    Owned (applyAll [.insert (.org org) (.org type creator), .insert (.membership org creator) (.membership .owner),
      .emit (.orgCreated org type)] d) := by
  intro o ho
  by_cases hsame : o = org
  · subst hsame
    have hnone : Db.find? d (.membership o creator) = none := by
      simpa [allowedAll, Write.allowed, Write.find?_apply, Write.effect] using (Bool.and_eq_true_iff.mp hnew).2
    refine ⟨creator, getMembership_eq_some.mpr ?_⟩
    simp [find?_applyAll, Write.effect, hnone]
  · rw [find?_applyAll_of_ne (by simp [Write.key?, Ne.symm hsame])] at ho
    obtain ⟨user, huser⟩ := h o ho
    exact ⟨user, getMembership_applyAll (by simp [Write.key?, Ne.symm hsame]) huser⟩

theorem owned_add (h : Owned d)
    (hnew : allowedAll [.insert (.membership org target) (.membership role), .emit (.memberAdded org target role)] d = true) :
    Owned (applyAll [.insert (.membership org target) (.membership role), .emit (.memberAdded org target role)] d) := by
  intro o ho
  have hnone : Db.find? d (.membership org target) = none := by
    simpa [allowedAll, Write.allowed] using hnew
  rw [find?_applyAll_of_ne (by simp [Write.key?])] at ho
  obtain ⟨user, huser⟩ := h o ho
  refine ⟨user, getMembership_applyAll ?_ huser⟩
  -- the new row is not the owner's: that one was there before
  rw [getMembership_eq_some] at huser
  have hne : ¬ (org = o ∧ target = user) := by
    rintro ⟨rfl, rfl⟩
    rw [hnone] at huser
    cases huser
  simpa [Write.key?] using hne

theorem owned_remove (h : Owned d) (hkeyed : Db.Keyed d)
    (hkeeps : ¬ (Tables.getMembership d org target = some .owner ∧ Tables.countOwners d org ≤ 1)) :
    Owned (applyAll [.delete (.membership org target), .emit (.memberRemoved org target)] d) := by
  intro o ho
  rw [find?_applyAll_of_ne (by simp [Write.key?])] at ho
  obtain ⟨user, huser⟩ := h o ho
  by_cases hsame : org = o ∧ target = user
  · obtain ⟨rfl, rfl⟩ := hsame
    have hmany : 1 < Tables.countOwners d org := Nat.lt_of_not_le fun hle => hkeeps ⟨huser, hle⟩
    obtain ⟨other, hother, howner⟩ := exists_other_owner hkeyed hmany target
    exact ⟨other, getMembership_applyAll (by simp [Write.key?, Ne.symm hother]) howner⟩
  · exact ⟨user, getMembership_applyAll (by simpa [Write.key?] using hsame) huser⟩
end

section
variable {n : Nat} {r : Request} {w : World}

theorem yields_requireRole (actor org : UUID) (permission : Permission) (hold : contract.Holding n r [] w) :
    TxYields backend contract n r (requireRole actor org permission) (fun _ w' => contract.Holding n r [] w') w := by
  apply TxYields.bind (TxYields.query hold)
  intro roles w₁ h₁
  split
  · exact TxYields.raise
  · apply TxYields.bind TxYields.require
    rintro _ _ ⟨rfl, -⟩
    exact TxYields.ret (h₁.1.holding hold)

theorem yields_create (creator : UUID) (orgType : String) (hold : contract.Holding n r [] w) :
    TxYields backend contract n r (create creator orgType) (fun _ _ => True) w := by
  rw [create]
  split
  · exact TxYields.raise
  · apply TxYields.bind (TxYields.ask (fun _ => True) hold fun _ _ _ _ _ h _ => ⟨h, trivial⟩)
    intro org w₁ h₁
    apply TxYields.bind (TxYields.flush (h₁.1.holding hold))
    intro _ w₂ h₂
    apply TxYields.bind (TxYields.flush h₂.1)
    intro _ w₃ h₃
    apply TxYields.bind (TxYields.flush h₃.1)
    intro _ w₄ h₄
    apply TxYields.bind (TxYields.commit (fun _ => True) h₄.1 trivial ?_)
    · exact fun _ w₅ _ => TxYields.ret trivial
    · intro w₅ _ _ _ hinv _ hallowed
      exact ⟨owned_create hinv _ _ hallowed, trivial⟩

theorem yields_ask {x : Ask} (hold : contract.Holding n r [] w) :
    TxYields backend contract n r (TxAct.ask x : Act x.Answer) (fun _ w' => contract.Holding n r [] w') w := by
  apply TxYields.mono (TxYields.ask (fun _ => True) hold fun _ _ _ _ _ h _ => ⟨h, trivial⟩)
  exact fun _ w₁ h₁ => h₁.1.holding hold

theorem yields_lookupTarget (targetUser : Option UUID) (targetEmail : Option String) (hold : contract.Holding n r [] w) :
    TxYields backend contract n r (lookupTarget targetUser targetEmail) (fun _ w' => contract.Holding n r [] w') w := by
  cases targetUser with
  | some user => exact yields_ask hold
  | none =>
    cases targetEmail with
    | some email => exact yields_ask hold
    | none => exact TxYields.ret hold

theorem yields_addMember (actor org : UUID) (targetUser : Option UUID) (targetEmail : Option String) (role : String)
    (hold : contract.Holding n r [] w) :
    TxYields backend contract n r (addMember actor org targetUser targetEmail role) (fun _ _ => True) w := by
  apply TxYields.bind (yields_requireRole actor org .memberInvite hold)
  intro _ w₁ hold₁
  split
  · exact TxYields.raise
  · apply TxYields.bind (yields_lookupTarget targetUser targetEmail hold₁)
    intro target w₂ hold₂
    cases target with
    | none => exact TxYields.raise
    | some target =>
      apply TxYields.bind (TxYields.query hold₂)
      intro existing w₃ h₃
      apply TxYields.bind TxYields.require
      rintro _ _ ⟨rfl, -⟩
      apply TxYields.bind (TxYields.flush (h₃.1.holding hold₂))
      intro _ w₄ h₄
      apply TxYields.bind (TxYields.flush h₄.1)
      intro _ w₅ h₅
      apply TxYields.bind (TxYields.commit (fun _ => True) h₅.1 trivial ?_)
      · exact fun _ w₆ _ => TxYields.ret trivial
      · intro w₆ _ _ _ hinv _ hallowed
        exact ⟨owned_add hinv hallowed, trivial⟩

theorem yields_requireOtherOwner (org : UUID) (role : Role) (hold : contract.Holding n r [] w) :
    TxYields backend contract n r (requireOtherOwner org role) (fun _ w' => contract.Holding n r [] w') w := by
  cases role with
  | owner =>
    apply TxYields.bind (TxYields.query hold)
    intro owners w₁ h₁
    apply TxYields.mono TxYields.require
    rintro _ _ ⟨rfl, -⟩
    exact h₁.1.holding hold
  | admin => exact TxYields.ret hold
  | developer => exact TxYields.ret hold
  | operator => exact TxYields.ret hold
  | viewer => exact TxYields.ret hold

theorem yields_removeMember (actor org target : UUID) (hold : contract.Holding n (.removeMember actor org target) [] w) :
    TxYields backend contract n (.removeMember actor org target) (removeMember actor org target) (fun _ _ => True) w := by
  apply TxYields.bind (yields_requireRole actor org .memberRemove hold)
  intro _ w₁ hold₁
  apply TxYields.bind (TxYields.query hold₁)
  intro membership w₂ h₂
  cases membership with
  | none => exact TxYields.raise
  | some role =>
    apply TxYields.bind (yields_requireOtherOwner org role (h₂.1.holding hold₁))
    intro _ w₃ hold₃
    apply TxYields.bind (TxYields.flush hold₃)
    intro _ w₄ h₄
    apply TxYields.bind (TxYields.flush h₄.1)
    intro _ w₅ h₅
    apply TxYields.bind (TxYields.commit (fun _ => True) h₅.1 trivial ?_)
    · exact fun _ w₆ _ => TxYields.ret trivial
    · intro w₆ _ _ hsound hinv hkeeps _
      exact ⟨owned_remove hinv hsound.keyed hkeeps, trivial⟩

theorem yields_handle (hold : contract.Holding n r [] w) : TxYields backend contract n r (handle r) (fun _ _ => True) w := by
  cases r with
  | create creator orgType => exact yields_create creator orgType hold
  | addMember actor org targetUser targetEmail role =>
    exact yields_addMember actor org targetUser targetEmail role hold
  | removeMember actor org target => exact yields_removeMember actor org target hold
end

/-- **Every organisation has an owner**, in every run in which no removal commits that takes the last owner of that
    moment. -/
theorem every_org_owned (moves : List (Move Request (TxChoice Reply) Nat))
    (met : ∀ e ∈ trace system.step { shared := { rest := () } } moves, CommitsMeet KeepsOwner e.1 e.2) :
    Owned (system.exec { rest := () } moves).shared.store.committed := by
  have hempty : Owned {} := by
    intro org horg
    cases horg
  have hkeeps : contract.Keeps backend handle (fun _ _ _ _ => True) :=
    ⟨fun _ _ _ _ _ _ _ => trivial, fun _ _ _ _ hold => yields_handle hold⟩
  exact (hkeeps.sound Db.keyed_empty rfl hempty moves fun e he =>
    TxContract.meets_of_commitsMeet (fun _ _ _ _ => trivial) (met e he)).inv.2

namespace Sample
def founded : List (Move Request (TxChoice Reply) Nat) :=
  [.start (.create 1 "merchant"), .run 0 (.env (.uuid 7)), .run 0 .ok, .run 0 .ok, .run 0 .ok, .run 0 .ok,
    .start (.addMember 1 7 (some 2) none "owner"), .run 1 .ok, .run 1 (.env (.user (some 2))), .run 1 .ok, .run 1 .ok,
    .run 1 .ok, .run 1 .ok]

def removed : List (Move Request (TxChoice Reply) Nat) :=
  founded ++ [.start (.removeMember 1 7 2), .run 2 .ok, .run 2 .ok, .run 2 .ok, .run 2 .ok, .run 2 .ok, .run 2 .ok]

def bothRemoved : List (Move Request (TxChoice Reply) Nat) :=
  founded ++ [.start (.removeMember 1 7 2), .start (.removeMember 2 7 1), .run 2 .ok, .run 3 .ok, .run 2 .ok, .run 3 .ok,
    .run 2 .ok, .run 3 .ok, .run 2 .ok, .run 3 .ok, .run 2 .ok, .run 3 .ok, .run 2 .ok, .run 3 .ok]
end Sample

theorem every_org_owned_removed : Owned (system.exec { rest := () } Sample.removed).shared.store.committed :=
  every_org_owned Sample.removed (by decide +kernel)

/-- Both removals commit, and organisation 7 is left without an owner. -/
theorem both_owners_removed : ¬ Owned (system.exec { rest := () } Sample.bothRemoved).shared.store.committed := by
  have hrows : (system.exec { rest := () } Sample.bothRemoved).shared.store.committed.rows =
      [(.org 7, .org .merchant 1)] := by decide +kernel
  intro h
  obtain ⟨user, huser⟩ := h 7 (by simp [Db.find?, hrows])
  simp [Tables.getMembership, Db.find?, hrows] at huser

end LinkMint.Identity.Orgs
