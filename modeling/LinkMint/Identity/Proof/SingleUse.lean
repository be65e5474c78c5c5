import LinkMint.Identity.Sessions

/-!
# Tokens are used once

A rotation and a password reset look at a token in one statement and retire it in another; a
revocation of all sessions lists them in one statement and retires those in another.
-/

namespace LinkMint.Identity.Sessions

open LinkMint.Lib

def exchanged? : List Change → Option String
  | [.update (.session hash) _, .insert (.session _) _] => some hash
  | _ => none

def accepted? : List Change → Option String
  | .update (.user _) _ :: .update (.reset hash) _ :: _ => some hash
  | _ => none

def revokedUser? (cfg : Settings) : Request → List Change → Tables → Option UUID
  | .rotate token, ws, d =>
    match exchanged? ws with
    | some _ => none
    | none => (Tables.getSessionByRefreshHash d (cfg.hashToken token)).map (·.user)
  | .confirmPasswordReset token _, _, d => (Tables.getPasswordResetByHash d (cfg.hashToken token)).map (·.user)
  | _, _, _ => none

/-- No other request came between the statements: the session that is exchanged and the reset that is
    accepted are unused at the commit, and a revocation covers every session that is active then. -/
structure Unraced (cfg : Settings) (r : Request) (ws : List Change) (d : Tables) : Prop where
  session : ∀ hash ∈ exchanged? ws, (Tables.getSessionByRefreshHash d hash).map (·.revokedAt) = some none
  reset : ∀ hash ∈ accepted? ws, (Tables.getPasswordResetByHash d hash).map (·.usedAt) = some none
  family : ∀ user ∈ revokedUser? cfg r ws d, ∀ hash ∈ Tables.listActiveSessionsForUser d user,
    ∃ x ∈ ws, x.key? = some (.session hash)

instance (cfg : Settings) (r : Request) (ws : List Change) (d : Tables) : Decidable (Unraced cfg r ws d) :=
  decidable_of_iff
    ((∀ hash ∈ exchanged? ws, (Tables.getSessionByRefreshHash d hash).map (·.revokedAt) = some none) ∧
      (∀ hash ∈ accepted? ws, (Tables.getPasswordResetByHash d hash).map (·.usedAt) = some none) ∧
      ∀ user ∈ revokedUser? cfg r ws d, ∀ hash ∈ Tables.listActiveSessionsForUser d user,
        ∃ x ∈ ws, x.key? = some (.session hash))
    ⟨fun h => ⟨h.1, h.2.1, h.2.2⟩, fun h => ⟨h.session, h.reset, h.family⟩⟩

inductive Does (cfg : Settings) : Request → List Change → Prop
  | login {identifier password : String} {code : Option String} (id : UUID) (hash : String) (row : SessionRow) :
      Does cfg (.login identifier password code) [.update (.user id) fun row => row, .insert (.session hash) (.session row)]
  | exchange {token : String} (now : Time) (hash : String) (row : SessionRow) :
      Does cfg (.rotate token) [revocation now (cfg.hashToken token), .insert (.session hash) (.session row)]
  | reuse {token : String} (now : Time) (hashes : List String) : Does cfg (.rotate token) (hashes.map (revocation now))
  | logout {user : UUID} {token : String} (now : Time) (hash : String) :
      Does cfg (.logout user token) [revocation now hash]
  | revoke {user id : UUID} (now : Time) (hash : String) : Does cfg (.revoke user id) [revocation now hash]
  | request {identifier : String} (id : UUID) (now : Time) (hashes : List String) (hash : String)
      (row : PasswordResetTokenRow) :
      Does cfg (.requestPasswordReset identifier) (hashes.map (fun h => .update (.reset h) (Row.markUsed now)) ++
        [.insert (.reset hash) (.reset row)] ++ [.emit (.passwordResetRequested id)])
  | confirm {token newPassword : String} (user : UUID) (password : String) (now now' : Time) (hashes : List String) :
      Does cfg (.confirmPasswordReset token newPassword)
        ([.update (.user user) (Row.setPassword password), .update (.reset (cfg.hashToken token)) (Row.markUsed now)] ++
          (hashes.map (revocation now') ++ [.emit (.passwordResetSucceeded user)]))

def contract (cfg : Settings) : TxContract Ask Key Row Event Unit Request where
  inv _ _ := True
  does := Does cfg
  commits := Unraced cfg

inductive Retires : Change → Prop
  | insert (k : Key) (row : Row) : Retires (.insert k row)
  | user (id : UUID) (f : Row → Row) : Retires (.update (.user id) f)
  | session (now : Time) (hash : String) : Retires (revocation now hash)
  | reset (now : Time) (hash : String) : Retires (.update (.reset hash) (Row.markUsed now))
  | emit (e : Event) : Retires (.emit e)

theorem Does.retires {cfg : Settings} {r : Request} {ws : List Change} (h : Does cfg r ws) : ∀ x ∈ ws, Retires x := by
  cases h with
  | login id hash row =>
    intro x hx
    simp only [List.mem_cons, List.not_mem_nil, or_false] at hx
    rcases hx with rfl | rfl
    · exact .user _ _
    · exact .insert _ _
  | exchange now hash row =>
    intro x hx
    simp only [List.mem_cons, List.not_mem_nil, or_false] at hx
    rcases hx with rfl | rfl
    · exact .session _ _
    · exact .insert _ _
  | reuse now hashes =>
    intro x hx
    obtain ⟨hash, -, rfl⟩ := List.mem_map.mp hx
    exact .session _ _
  | logout now hash =>
    intro x hx
    obtain rfl := List.mem_singleton.mp hx
    exact .session _ _
  | revoke now hash =>
    intro x hx
    obtain rfl := List.mem_singleton.mp hx
    exact .session _ _
  | request id now hashes hash row =>
    intro x hx
    simp only [List.mem_append, List.mem_map, List.mem_singleton] at hx
    rcases hx with (⟨h, -, rfl⟩ | rfl) | rfl
    · exact .reset _ _
    · exact .insert _ _
    · exact .emit _
  | confirm user password now now' hashes =>
    intro x hx
    simp only [List.mem_append, List.mem_cons, List.not_mem_nil, or_false, List.mem_map] at hx
    rcases hx with (rfl | rfl) | ⟨h, -, rfl⟩ | rfl
    · exact .user _ _
    · exact .reset _ _
    · exact .session _ _
    · exact .emit _

section
variable {d : Tables} {x : Change} {ws : List Change} {hash : String}

theorem getSession_eq_some {s : SessionRow} :
    Tables.getSessionByRefreshHash d hash = some s ↔ Db.find? d (.session hash) = some (.session s) := by
  rw [Tables.getSessionByRefreshHash]
  split
  · rename_i found h
    simp [h]
  · rename_i h
    constructor
    · intro hnone
      cases hnone
    · intro hsome
      exact absurd hsome (h s)

variable {t : PasswordResetTokenRow}

theorem getReset_eq_some : Tables.getPasswordResetByHash d hash = some t ↔ Db.find? d (.reset hash) = some (.reset t) := by
  rw [Tables.getPasswordResetByHash]
  split
  · rename_i found h
    simp [h]
  · rename_i h
    constructor
    · intro hnone
      cases hnone
    · intro hsome
      exact absurd hsome (h t)

def SessionRow.Kept (s : SessionRow) (row : Row) : Prop :=
  ∃ s', row = .session s' ∧ s'.user = s.user ∧ (s.revokedAt.isSome = true → s'.revokedAt.isSome = true)

def PasswordResetTokenRow.Kept (t : PasswordResetTokenRow) (row : Row) : Prop :=
  ∃ t', row = .reset t' ∧ (t.usedAt.isSome = true → t'.usedAt.isSome = true)

theorem Retires.keeps_session (h : Retires x) {s : SessionRow} {row : Row} (hrow : s.Kept row) :
    ∃ row', x.effect (.session hash) (some row) = some row' ∧ s.Kept row' := by
  obtain ⟨s₁, rfl, huser, hrevoked⟩ := hrow
  cases h with
  | insert k row => exact ⟨_, by simp [Write.effect], s₁, rfl, huser, hrevoked⟩
  | user id f => exact ⟨_, by simp [Write.effect], s₁, rfl, huser, hrevoked⟩
  | reset now hash' => exact ⟨_, by simp [Write.effect], s₁, rfl, huser, hrevoked⟩
  | emit e => exact ⟨_, rfl, s₁, rfl, huser, hrevoked⟩
  | session now hash' =>
    by_cases hsame : hash' = hash
    · exact ⟨.session { s₁ with revokedAt := some now }, by simp [revocation, Write.effect, hsame, Row.revoke],
        _, rfl, huser, fun _ => rfl⟩
    · exact ⟨_, by simp [revocation, Write.effect, hsame], s₁, rfl, huser, hrevoked⟩

theorem Retires.keeps_reset (h : Retires x) {row : Row} (hrow : t.Kept row) :
    ∃ row', x.effect (.reset hash) (some row) = some row' ∧ t.Kept row' := by
  obtain ⟨t₁, rfl, hused⟩ := hrow
  cases h with
  | insert k row => exact ⟨_, by simp [Write.effect], t₁, rfl, hused⟩
  | user id f => exact ⟨_, by simp [Write.effect], t₁, rfl, hused⟩
  | session now hash' => exact ⟨_, by simp [revocation, Write.effect], t₁, rfl, hused⟩
  | emit e => exact ⟨_, rfl, t₁, rfl, hused⟩
  | reset now hash' =>
    by_cases hsame : hash' = hash
    · exact ⟨.reset { t₁ with usedAt := some now }, by simp [Write.effect, hsame, Row.markUsed], _, rfl, fun _ => rfl⟩
    · exact ⟨_, by simp [Write.effect, hsame], t₁, rfl, hused⟩

theorem session_stays (h : ∀ x ∈ ws, Retires x) {s : SessionRow} (hs : Tables.getSessionByRefreshHash d hash = some s) :
    ∃ s', Tables.getSessionByRefreshHash (applyAll ws d) hash = some s' ∧ s'.user = s.user ∧
      (s.revokedAt.isSome = true → s'.revokedAt.isSome = true) := by
  have hstep : ∀ x ∈ ws, ∀ row, s.Kept row → ∃ row', x.effect (.session hash) (some row) = some row' ∧ s.Kept row' :=
    fun x hx row hrow => (h x hx).keeps_session hrow
  obtain ⟨_, hfound, s', rfl, hs'⟩ := find?_applyAll_keeps hstep (getSession_eq_some.mp hs) ⟨s, rfl, rfl, fun h => h⟩
  exact ⟨s', getSession_eq_some.mpr hfound, hs'⟩

theorem reset_stays (h : ∀ x ∈ ws, Retires x) (ht : Tables.getPasswordResetByHash d hash = some t) :
    ∃ t', Tables.getPasswordResetByHash (applyAll ws d) hash = some t' ∧
      (t.usedAt.isSome = true → t'.usedAt.isSome = true) := by
  have hstep : ∀ x ∈ ws, ∀ row, t.Kept row → ∃ row', x.effect (.reset hash) (some row) = some row' ∧ t.Kept row' :=
    fun x hx row hrow => (h x hx).keeps_reset hrow
  obtain ⟨_, hfound, t', rfl, ht'⟩ := find?_applyAll_keeps hstep (getReset_eq_some.mp ht) ⟨t, rfl, fun h => h⟩
  exact ⟨t', getReset_eq_some.mpr hfound, ht'⟩

theorem revoked_of_mem (h : ∀ x ∈ ws, Retires x) {now : Time} (hx : revocation now hash ∈ ws) {s : SessionRow}
    (hs : Tables.getSessionByRefreshHash d hash = some s) :
    ∃ s', Tables.getSessionByRefreshHash (applyAll ws d) hash = some s' ∧ s'.revokedAt.isSome = true := by
  have hturns : ∀ row, s.Kept row → ∃ row', (revocation now hash).effect (.session hash) (some row) = some row' ∧
      SessionRow.Kept { s with revokedAt := some now } row' := by
    rintro _ ⟨s₁, rfl, huser, -⟩
    exact ⟨.session { s₁ with revokedAt := some now }, by simp [revocation, Write.effect, Row.revoke], _, rfl, huser,
      fun _ => rfl⟩
  obtain ⟨_, hfound, s', rfl, -, hrevoked⟩ := find?_applyAll_reaches (fun x hx _ hrow => (h x hx).keeps_session hrow)
    (fun x hx _ hrow => (h x hx).keeps_session hrow) hx hturns (getSession_eq_some.mp hs) ⟨s, rfl, rfl, fun h => h⟩
  exact ⟨s', getSession_eq_some.mpr hfound, hrevoked rfl⟩

theorem used_of_mem (h : ∀ x ∈ ws, Retires x) {now : Time} (hx : .update (.reset hash) (Row.markUsed now) ∈ ws)
    (ht : Tables.getPasswordResetByHash d hash = some t) :
    ∃ t', Tables.getPasswordResetByHash (applyAll ws d) hash = some t' ∧ t'.usedAt.isSome = true := by
  have hturns : ∀ row, t.Kept row → ∃ row',
      (.update (.reset hash) (Row.markUsed now) : Change).effect (.reset hash) (some row) = some row' ∧
        PasswordResetTokenRow.Kept { t with usedAt := some now } row' := by
    rintro _ ⟨t₁, rfl, -⟩
    exact ⟨.reset { t₁ with usedAt := some now }, by simp [Write.effect, Row.markUsed], _, rfl, fun _ => rfl⟩
  obtain ⟨_, hfound, t', rfl, hused⟩ := find?_applyAll_reaches (fun x hx _ hrow => (h x hx).keeps_reset hrow)
    (fun x hx _ hrow => (h x hx).keeps_reset hrow) hx hturns (getReset_eq_some.mp ht) ⟨t, rfl, fun h => h⟩
  exact ⟨t', getReset_eq_some.mpr hfound, hused rfl⟩
end

def Revoked (d : Tables) (hash : String) : Prop :=
  ∃ s, Tables.getSessionByRefreshHash d hash = some s ∧ s.revokedAt.isSome = true

def Used (d : Tables) (hash : String) : Prop :=
  ∃ t, Tables.getPasswordResetByHash d hash = some t ∧ t.usedAt.isSome = true

section
variable {cfg : Settings} {r : Request} {ws : List Change} {d d' : Tables} {hash : String} {user : UUID} {n : Nat}

theorem exchanged?_eq_some (h : Does cfg r ws) (hws : exchanged? ws = some hash) :
    ∃ token now hash' row, r = .rotate token ∧ hash = cfg.hashToken token ∧
      ws = [revocation now hash, .insert (.session hash') (.session row)] := by
  cases h with
  | login id hash row => cases hws
  | exchange now hash' row =>
    cases hws
    exact ⟨_, now, hash', row, rfl, rfl, rfl⟩
  | reuse now hashes =>
    match hashes, hws with
    | [], hws => cases hws
    | [_], hws => cases hws
    | _ :: _ :: _, hws => cases hws
  | logout now hash => cases hws
  | revoke now hash => cases hws
  | request id now hashes hash row =>
    match hashes, hws with
    | [], hws => cases hws
    | [_], hws => cases hws
    | _ :: _ :: _, hws => cases hws
  | confirm user password now now' hashes => cases hws

theorem accepted?_eq_some (h : Does cfg r ws) (hws : accepted? ws = some hash) :
    ∃ token password now, r = .confirmPasswordReset token password ∧ hash = cfg.hashToken token ∧
      .update (.reset hash) (Row.markUsed now) ∈ ws := by
  cases h with
  | login id hash row => cases hws
  | exchange now hash row => cases hws
  | reuse now hashes =>
    match hashes, hws with
    | [], hws => cases hws
    | [_], hws => cases hws
    | _ :: _ :: _, hws => cases hws
  | logout now hash => cases hws
  | revoke now hash => cases hws
  | request id now hashes hash row =>
    match hashes, hws with
    | [], hws => cases hws
    | [_], hws => cases hws
    | _ :: _ :: _, hws => cases hws
  | confirm user password now now' hashes =>
    cases hws
    exact ⟨_, _, now, rfl, rfl, by simp⟩

theorem revoked_transact (h : Does cfg r ws) (hrevoked : Revoked d hash) : Revoked (d.transact n ws) hash := by
  obtain ⟨s, hs, hs'⟩ := hrevoked
  obtain ⟨s₁, hs₁, -, hkept⟩ := session_stays h.retires hs
  exact ⟨s₁, hs₁, hkept hs'⟩

theorem used_transact (h : Does cfg r ws) (hused : Used d hash) : Used (d.transact n ws) hash := by
  obtain ⟨t, ht, ht'⟩ := hused
  obtain ⟨t₁, ht₁, hkept⟩ := reset_stays h.retires ht
  exact ⟨t₁, ht₁, hkept ht'⟩

theorem consumes_sessions (cfg : Settings) : (contract cfg).Consumes exchanged? Revoked where
  keeps d d' hash h hrevoked := by
    obtain ⟨n, hdoes, -, -, -⟩ := h
    exact revoked_transact hdoes hrevoked
  spends n r ws d hash hdoes hcommits _ hws := by
    obtain ⟨s, hs, -⟩ := Option.map_eq_some_iff.mp (hcommits.session hash hws)
    obtain ⟨token, now, hash', row, -, -, rfl⟩ := exchanged?_eq_some hdoes hws
    exact revoked_of_mem hdoes.retires List.mem_cons_self hs
  unspent r ws d hash hdoes hcommits hws := by
    rintro ⟨s, hs, hrevoked⟩
    have hnone := hcommits.session hash hws
    rw [hs, Option.map_some, Option.some.injEq] at hnone
    rw [hnone] at hrevoked
    cases hrevoked

theorem consumes_resets (cfg : Settings) : (contract cfg).Consumes accepted? Used where
  keeps d d' hash h hused := by
    obtain ⟨n, hdoes, -, -, -⟩ := h
    exact used_transact hdoes hused
  spends n r ws d hash hdoes hcommits _ hws := by
    obtain ⟨t, ht, -⟩ := Option.map_eq_some_iff.mp (hcommits.reset hash hws)
    obtain ⟨token, password, now, -, -, hmem⟩ := accepted?_eq_some hdoes hws
    exact used_of_mem hdoes.retires hmem ht
  unspent r ws d hash hdoes hcommits hws := by
    rintro ⟨t, ht, hused⟩
    have hnone := hcommits.reset hash hws
    rw [ht, Option.map_some, Option.some.injEq] at hnone
    rw [hnone] at hused
    cases hused

theorem revokes_family (h : Does cfg r ws) (huser : revokedUser? cfg r ws d = some user) :
    (∀ hash row, .insert (.session hash) row ∉ ws) ∧
      ∀ x ∈ ws, ∀ hash, x.key? = some (.session hash) → ∃ now, x = revocation now hash := by
  cases h with
  | login id hash row => cases huser
  | exchange now hash row => cases huser
  | logout now hash => cases huser
  | revoke now hash => cases huser
  | request id now hashes hash row => cases huser
  | reuse now hashes =>
    constructor
    · simp [revocation]
    · intro x hx hash hkey
      obtain ⟨hash', -, rfl⟩ := List.mem_map.mp hx
      obtain rfl : hash' = hash := by simpa [revocation, Write.key?] using hkey
      exact ⟨now, rfl⟩
  | confirm user' password now now' hashes =>
    constructor
    · simp [revocation]
    · intro x hx hash hkey
      simp only [List.mem_append, List.mem_cons, List.not_mem_nil, or_false, List.mem_map] at hx
      rcases hx with (rfl | rfl) | ⟨hash', -, rfl⟩ | rfl
      · simp [Write.key?] at hkey
      · simp [Write.key?] at hkey
      · obtain rfl : hash' = hash := by simpa [revocation, Write.key?] using hkey
        exact ⟨now', rfl⟩
      · simp [Write.key?] at hkey

theorem session_before (h : ∀ x ∈ ws, Retires x) (hnew : ∀ row, .insert (.session hash) row ∉ ws) {s : SessionRow}
    (hs : Tables.getSessionByRefreshHash (applyAll ws d) hash = some s) :
    ∃ s₀, Tables.getSessionByRefreshHash d hash = some s₀ := by
  have hother : ∀ x ∈ ws, ∀ row, (∀ s, row ≠ .session s) →
      ∃ row', x.effect (.session hash) (some row) = some row' ∧ ∀ s, row' ≠ .session s := by
    intro x hx row hrow
    cases h x hx with
    | insert k _ => exact ⟨row, by simp [Write.effect], hrow⟩
    | user id f => exact ⟨row, by simp [Write.effect], hrow⟩
    | reset now hash' => exact ⟨row, by simp [Write.effect], hrow⟩
    | emit e => exact ⟨row, rfl, hrow⟩
    | session now hash' =>
      refine ⟨row, ?_, hrow⟩
      cases row with
      | session s => exact absurd rfl (hrow s)
      | user u => simp [revocation, Write.effect, Row.revoke]
      | reset t => simp [revocation, Write.effect, Row.revoke]
  rw [getSession_eq_some] at hs
  cases hd : Db.find? d (.session hash) with
  | none =>
    rw [find?_applyAll_eq_none hnew hd] at hs
    cases hs
  | some row =>
    by_cases hrow : ∃ s, row = .session s
    · obtain ⟨s₀, rfl⟩ := hrow
      exact ⟨s₀, getSession_eq_some.mpr hd⟩
    · obtain ⟨row', hfound, hrow'⟩ := find?_applyAll_keeps hother hd (not_exists.mp hrow)
      exact absurd (Option.some.inj (hfound.symm.trans hs)) (hrow' s)

theorem mem_listActive {s : SessionRow} (hs : Tables.getSessionByRefreshHash d hash = some s) (huser : s.user = user)
    (hactive : s.revokedAt = none) : hash ∈ Tables.listActiveSessionsForUser d user := by
  rw [getSession_eq_some] at hs
  exact List.mem_filterMap.mpr ⟨_, Db.mem_of_find? hs, by simp [huser, hactive]⟩

theorem family_revoked (h : Does cfg r ws) (hcommits : Unraced cfg r ws d) (huser : revokedUser? cfg r ws d = some user)
    {s : SessionRow} (hs : Tables.getSessionByRefreshHash (d.transact n ws) hash = some s) (hs' : s.user = user) :
    Revoked (d.transact n ws) hash := by
  obtain ⟨hnew, htouched⟩ := revokes_family h huser
  obtain ⟨s₀, hs₀⟩ := session_before h.retires (hnew hash) hs
  obtain ⟨s₁, hs₁, huser₁, hkept⟩ := session_stays h.retires hs₀
  obtain rfl : s₁ = s := Option.some.inj (hs₁.symm.trans hs)
  cases hactive : s₀.revokedAt with
  | some now => exact ⟨s₁, hs₁, hkept (by rw [hactive]; rfl)⟩
  | none =>
    obtain ⟨x, hx, hkey⟩ := hcommits.family user huser hash (mem_listActive hs₀ (huser₁.symm.trans hs') hactive)
    obtain ⟨now, rfl⟩ := htouched x hx hash hkey
    exact revoked_of_mem h.retires hx hs₀
end

section
variable {cfg : Settings} {n : Nat} {r : Request} {w : World}

def Answered (cfg : Settings) (n : Nat) : Request → Option String → World → Prop
  | .rotate token, _, w => ∃ ws, (n, ws) ∈ w.store.committed.history ∧ exchanged? ws = some (cfg.hashToken token)
  | .confirmPasswordReset token _, _, w =>
      ∃ ws, (n, ws) ∈ w.store.committed.history ∧ accepted? ws = some (cfg.hashToken token)
  | _, _, _ => True

theorem yields_ask {x : Ask} {ws : List Change} (hold : (contract cfg).Holding n r ws w) :
    TxYields backend (contract cfg) n r (TxAct.ask x : Act x.Answer) (fun _ w' => (contract cfg).Holding n r ws w') w := by
  apply TxYields.mono (TxYields.ask (fun _ => True) hold fun _ _ _ _ _ h _ => ⟨h, trivial⟩)
  exact fun _ w₁ h₁ => h₁.1.holding hold

theorem yields_query {q : Query} {ws : List Change} (hold : (contract cfg).Holding n r ws w) :
    TxYields backend (contract cfg) n r (TxAct.query q : Act q.Answer) (fun _ w' => (contract cfg).Holding n r ws w') w := by
  apply TxYields.mono (TxYields.query hold)
  exact fun _ w₁ h₁ => h₁.1.holding hold

theorem yields_commit {ws : List Change} (hold : (contract cfg).Holding n r ws w) (hdoes : Does cfg r ws) :
    TxYields backend (contract cfg) n r (TxAct.commit : Act Unit) (fun _ w' => (n, ws) ∈ w'.store.committed.history) w := by
  apply TxYields.mono (TxYields.commit (fun d => (n, ws) ∈ d.history) hold hdoes ?_)
  · exact fun _ w₁ h₁ => h₁.2
  · intro w₁ _ _ _ _ _ _
    exact ⟨trivial, by simp [Db.transact]⟩

theorem yields_issue (user : UUID) (dirty : List Change) (hold : (contract cfg).Holding n r [] w)
    (hdoes : ∀ hash row, Does cfg r (dirty ++ [.insert (.session hash) (.session row)])) :
    TxYields backend (contract cfg) n r (issue cfg user dirty) (fun _ w' => ∃ hash row,
      (n, dirty ++ [.insert (.session hash) (.session row)]) ∈ w'.store.committed.history) w := by
  apply TxYields.bind (yields_ask hold)
  intro refresh w₁ hold₁
  apply TxYields.bind (yields_ask hold₁)
  intro sid w₂ hold₂
  apply TxYields.bind (yields_ask hold₂)
  intro now w₃ hold₃
  apply TxYields.bind (TxYields.flush hold₃)
  intro _ w₄ h₄
  apply TxYields.bind (yields_query h₄.1)
  intro _ w₅ hold₅
  apply TxYields.bind (yields_commit hold₅ (hdoes _ _))
  intro _ w₆ h₆
  exact TxYields.ret ⟨_, _, h₆⟩

theorem yields_revokeFamily (user : UUID) (dirty : List Change) (hold : (contract cfg).Holding n r [] w) :
    TxYields backend (contract cfg) n r (revokeFamily user dirty)
      (fun revocations w' => (contract cfg).Holding n r dirty w' ∧ ∃ now, ∃ hashes : List String,
        revocations = hashes.map (revocation now)) w := by
  apply TxYields.bind (yields_ask hold)
  intro now w₁ hold₁
  apply TxYields.bind (TxYields.flush hold₁)
  intro _ w₂ h₂
  apply TxYields.bind (yields_query h₂.1)
  intro active w₃ hold₃
  exact TxYields.ret ⟨hold₃, now, active, rfl⟩

theorem yields_requireActive (user : UUID) (message : String) (hold : (contract cfg).Holding n r [] w) :
    TxYields backend (contract cfg) n r (requireActive user message) (fun _ w' => (contract cfg).Holding n r [] w') w := by
  apply TxYields.bind (yields_query hold)
  intro row w₁ hold₁
  cases row with
  | none => exact TxYields.raise
  | some row =>
    apply TxYields.mono TxYields.require
    rintro _ _ ⟨rfl, -⟩
    exact hold₁

theorem yields_rotate (token : String) (hold : (contract cfg).Holding n (.rotate token) [] w) :
    TxYields backend (contract cfg) n (.rotate token) (rotate cfg token) (Answered cfg n (.rotate token)) w := by
  apply TxYields.bind (yields_query hold)
  intro session w₁ hold₁
  cases session with
  | none => exact TxYields.raise
  | some session =>
    apply TxYields.bind (yields_ask hold₁)
    intro now w₂ hold₂
    split
    · apply TxYields.bind (yields_revokeFamily session.user [] hold₂)
      rintro _ w₃ ⟨hold₃, now', hashes, rfl⟩
      apply TxYields.bind (TxYields.flush hold₃)
      intro _ w₄ h₄
      apply TxYields.bind (yields_commit h₄.1 (.reuse now' hashes))
      exact fun _ w₅ _ => TxYields.raise
    · apply TxYields.bind TxYields.require
      rintro _ _ ⟨rfl, -⟩
      apply TxYields.bind (yields_requireActive session.user "invalid refresh token" hold₂)
      intro _ w₃ hold₃
      apply TxYields.mono (yields_issue session.user _ hold₃ fun hash row => .exchange now hash row)
      rintro _ w₄ ⟨hash, row, hmem⟩
      exact ⟨_, hmem, rfl⟩

theorem yields_revokeIfActive (hash : String) (session : SessionRow) (hold : (contract cfg).Holding n r [] w)
    (hdoes : ∀ now, Does cfg r [revocation now hash]) :
    TxYields backend (contract cfg) n r (revokeIfActive hash session) (fun _ _ => True) w := by
  rw [revokeIfActive]
  split
  · exact TxYields.ret trivial
  · apply TxYields.bind (yields_ask hold)
    intro now w₁ hold₁
    apply TxYields.bind (TxYields.flush hold₁)
    intro _ w₂ h₂
    apply TxYields.bind (yields_commit h₂.1 (hdoes now))
    exact fun _ w₃ _ => TxYields.ret trivial

theorem yields_logout (user : UUID) (token : String) (hold : (contract cfg).Holding n (.logout user token) [] w) :
    TxYields backend (contract cfg) n (.logout user token) (logout cfg user token) (fun _ _ => True) w := by
  apply TxYields.bind (yields_query hold)
  intro session w₁ hold₁
  cases session with
  | none => exact TxYields.ret trivial
  | some session =>
    dsimp only
    split
    · exact yields_revokeIfActive _ session hold₁ fun now => .logout now _
    · exact TxYields.ret trivial

theorem yields_revoke (user id : UUID) (hold : (contract cfg).Holding n (.revoke user id) [] w) :
    TxYields backend (contract cfg) n (.revoke user id) (revoke user id) (fun _ _ => True) w := by
  apply TxYields.bind (yields_query hold)
  intro found w₁ hold₁
  cases found with
  | none => exact TxYields.raise
  | some found =>
    obtain ⟨hash, session⟩ := found
    apply TxYields.bind TxYields.require
    rintro _ _ ⟨rfl, -⟩
    exact yields_revokeIfActive hash session hold₁ fun now => .revoke now hash

theorem yields_login (identifier password : String) (code : Option String) (hold : (contract cfg).Holding n (.login identifier password code) [] w) :
    TxYields backend (contract cfg) n (.login identifier password code) (login cfg identifier password code)
      (fun _ _ => True) w := by
  apply TxYields.bind (yields_query hold)
  intro found w₁ hold₁
  cases found with
  | none => exact TxYields.raise
  | some found =>
    obtain ⟨id, user⟩ := found
    apply TxYields.bind (yields_ask hold₁)
    intro verified w₂ hold₂
    apply TxYields.bind TxYields.require
    rintro _ _ ⟨rfl, -⟩
    apply TxYields.bind TxYields.require
    rintro _ _ ⟨rfl, -⟩
    apply TxYields.bind (yields_ask hold₂)
    intro mfa w₃ hold₃
    cases mfa with
    | some e => exact TxYields.raise
    | none =>
      apply TxYields.mono (yields_issue id _ hold₃ fun hash row => .login id hash row)
      exact fun _ _ _ => trivial

theorem yields_requestPasswordReset (identifier : String) (hold : (contract cfg).Holding n (.requestPasswordReset identifier) [] w) :
    TxYields backend (contract cfg) n (.requestPasswordReset identifier) (requestPasswordReset cfg identifier)
      (fun _ _ => True) w := by
  apply TxYields.bind (yields_query hold)
  intro found w₁ hold₁
  cases found with
  | none => exact TxYields.ret trivial
  | some found =>
    obtain ⟨id, user⟩ := found
    dsimp only
    split
    · exact TxYields.ret trivial
    · apply TxYields.bind (yields_ask hold₁)
      intro raw w₂ hold₂
      apply TxYields.bind (yields_ask hold₂)
      intro now w₃ hold₃
      apply TxYields.bind (yields_query hold₃)
      intro unused w₄ hold₄
      apply TxYields.bind (TxYields.flush hold₄)
      intro _ w₅ h₅
      apply TxYields.bind (yields_ask h₅.1)
      intro now' w₆ hold₆
      apply TxYields.bind (TxYields.flush hold₆)
      intro _ w₇ h₇
      apply TxYields.bind (TxYields.flush h₇.1)
      intro _ w₈ h₈
      apply TxYields.bind (yields_commit h₈.1 (.request id now unused _ _))
      exact fun _ w₉ _ => TxYields.ret trivial

theorem yields_confirmPasswordReset (token newPassword : String) (hold : (contract cfg).Holding n (.confirmPasswordReset token newPassword) [] w) :
    TxYields backend (contract cfg) n (.confirmPasswordReset token newPassword) (confirmPasswordReset cfg token newPassword)
      (Answered cfg n (.confirmPasswordReset token newPassword)) w := by
  apply TxYields.bind (yields_query hold)
  intro row w₁ hold₁
  cases row with
  | none => exact TxYields.raise
  | some row =>
    apply TxYields.bind (yields_ask hold₁)
    intro now w₂ hold₂
    apply TxYields.bind TxYields.require
    rintro _ _ ⟨rfl, -⟩
    apply TxYields.bind (yields_requireActive row.user "invalid reset token" hold₂)
    intro _ w₃ hold₃
    apply TxYields.bind (yields_ask hold₃)
    intro password w₄ hold₄
    apply TxYields.bind (yields_revokeFamily row.user _ hold₄)
    rintro _ w₅ ⟨hold₅, now', hashes, rfl⟩
    apply TxYields.bind (TxYields.flush hold₅)
    intro _ w₆ h₆
    apply TxYields.bind (yields_commit h₆.1 (.confirm row.user password now now' hashes))
    intro _ w₇ h₇
    exact TxYields.ret ⟨_, h₇, rfl⟩

theorem answered_rely {a : Option String} {w' : World} (h : Answered cfg n r a w) (hrely : (contract cfg).Rely n w w') :
    Answered cfg n r a w' := by
  have hkept : ∀ x ∈ w.store.committed.history, x ∈ w'.store.committed.history := hrely.grows.history.subset
  cases r with
  | rotate token =>
    obtain ⟨ws, hmem, hws⟩ := h
    exact ⟨ws, hkept _ hmem, hws⟩
  | confirmPasswordReset token newPassword =>
    obtain ⟨ws, hmem, hws⟩ := h
    exact ⟨ws, hkept _ hmem, hws⟩
  | login identifier password code => trivial
  | logout user token => trivial
  | revoke user id => trivial
  | requestPasswordReset identifier => trivial

theorem keeps (cfg : Settings) : (contract cfg).Keeps backend (handle cfg) (Answered cfg) where
  stays _ _ _ _ _ h hrely := answered_rely h hrely
  begins n r w _ hold := by
    cases r with
    | login identifier password code => exact yields_login identifier password code hold
    | rotate token => exact yields_rotate token hold
    | logout user token => exact yields_logout user token hold
    | revoke user id => exact yields_revoke user id hold
    | requestPasswordReset identifier => exact yields_requestPasswordReset identifier hold
    | confirmPasswordReset token newPassword => exact yields_confirmPasswordReset token newPassword hold
end

theorem keyed_registered (users : Std.ExtTreeMap UUID UserRow) : Db.Keyed (Tables.registered users) := by
  have hnodup : (users.keys.map Key.user).Nodup := (Std.ExtTreeMap.nodup_keys).map fun _ _ h => Key.user.inj h
  simpa [Db.Keyed, Tables.registered, ← Std.ExtTreeMap.map_fst_toList_eq_keys, Function.comp_def] using hnodup

def start (users : Std.ExtTreeMap UUID UserRow) : World := 
  { store := { committed := Tables.registered users }, rest := () }

/-- **Tokens are single-use and revocation is complete**, in every run whose commits do not come too late. -/
theorem tokens_single_use (cfg : Settings) (users : Std.ExtTreeMap UUID UserRow)
    (moves : List (Move Request (TxChoice Reply) Nat))
    (met : ∀ e ∈ trace (system cfg).step { shared := start users } moves, CommitsMeet (Unraced cfg) e.1 e.2) :
    let reached := (system cfg).exec (start users) moves
    (∀ n m token a b, reached.returned? n = some (.rotate token, .ok a) →
      reached.returned? m = some (.rotate token, .ok b) → n = m) ∧
    (∀ n m token p q a b, reached.returned? n = some (.confirmPasswordReset token p, .ok a) →
      reached.returned? m = some (.confirmPasswordReset token q, .ok b) → n = m) ∧
    ∀ before n e after, moves = before ++ .run n e :: after → let earlier := (system cfg).exec (start users) before
      let later := (system cfg).exec (start users) (before ++ [.run n e])
      ∀ r user, atCommit? earlier n = some r →
        later.shared.store.committed.history ≠ earlier.shared.store.committed.history →
        revokedUser? cfg r (earlier.shared.store.own n) earlier.shared.store.committed = some user →
        ∀ hash s, Tables.getSessionByRefreshHash later.shared.store.committed hash = some s → s.user = user →
          ∀ x ∈ reached.shared.store.committed.history.drop later.shared.store.committed.history.length,
            exchanged? x.2 ≠ some hash := by
  intro reached
  have met : ∀ e ∈ trace (system cfg).step { shared := start users } moves, Meets (contract cfg).contract e.1 e.2 :=
    fun e he => TxContract.meets_of_commitsMeet (fun _ _ _ _ => trivial) (met e he)
  have hsound : (contract cfg).SoundTx backend (handle cfg) (Answered cfg) reached :=
    (keeps cfg).sound (keyed_registered users) rfl trivial moves met
  have hevolves : (contract cfg).Evolves (Tables.registered users) reached.shared.store.committed :=
    (keeps cfg).evolves ((keeps cfg).sound (keyed_registered users) rfl trivial [] (by simp [trace])) moves met
  refine ⟨?_, ?_, ?_⟩
  · intro n m token a b hn hm
    obtain ⟨ws, hmem, hws⟩ := (hsound.procs n _ _ (Config.returned?_eq_some hn)).2 a rfl
    obtain ⟨ws', hmem', hws'⟩ := (hsound.procs m _ _ (Config.returned?_eq_some hm)).2 b rfl
    exact congrArg Prod.fst ((consumes_sessions cfg).unique hevolves rfl hmem hmem' hws hws')
  · intro n m token p q a b hn hm
    obtain ⟨ws, hmem, hws⟩ := (hsound.procs n _ _ (Config.returned?_eq_some hn)).2 a rfl
    obtain ⟨ws', hmem', hws'⟩ := (hsound.procs m _ _ (Config.returned?_eq_some hm)).2 b rfl
    exact congrArg Prod.fst ((consumes_resets cfg).unique hevolves rfl hmem hmem' hws hws')
  · rintro before n e after rfl earlier later r user hat hcommitted huser hash s hs hs'
    rw [trace_append] at met
    have hearlier : (contract cfg).SoundTx backend (handle cfg) (Answered cfg) earlier :=
      (keeps cfg).sound (keyed_registered users) rfl trivial before fun x hx => met x (List.mem_append_left _ hx)
    have hmet : Meets (contract cfg).contract earlier (.run n e : Move Request (TxChoice Reply) Nat) :=
      met (earlier, .run n e) (List.mem_append_right _ List.mem_cons_self)
    have hstep : later = (system cfg).step earlier (.run n e) := (system cfg).exec_snoc _ before _
    have hlater : (contract cfg).SoundTx backend (handle cfg) (Answered cfg) later := by
      rw [hstep]
      exact (keeps cfg).step hearlier hmet
    have hreached : reached = after.foldl (system cfg).step later := by
      rw [hstep]
      exact (system cfg).exec_append _ before (.run n e :: after)
    have hgoes : (contract cfg).Evolves later.shared.store.committed reached.shared.store.committed := by
      rw [hreached]
      refine (keeps cfg).evolves hlater after fun x hx => ?_
      rw [hstep] at hx
      exact met x (List.mem_append_right _ (List.mem_cons_of_mem _ hx))
    rw [hstep] at hcommitted
    obtain ⟨hcommit, hdoes, hunraced⟩ := (keeps cfg).commit_step hearlier hat hmet hcommitted
    have hlast : later.shared.store.committed =
        earlier.shared.store.committed.transact n (earlier.shared.store.own n) := by
      rw [hstep]
      exact hcommit
    -- every session of the user is revoked by now, and stays so
    have hrevoked : Revoked later.shared.store.committed hash := by
      rw [hlast] at hs ⊢
      exact family_revoked hdoes hunraced huser hs hs'
    exact (consumes_sessions cfg).not_again hgoes hrevoked

namespace Sample
def digest : String → String
  | "r1" => "82f3e9c695dc6b8d1b11818d5701919e286de8d47f7c3eb3100c485f79e57828"
  | "r2" => "db77fd01af957221a4989b64b3770a83a3c56068405b9f0e9408feae57fd17e4"
  | "r3" => "e49d63b2a8a78f048bafc4b4590029603a5a4165ee8bf98af15d62f24cd83479"
  | "t1" => "628b49d96dcde97a430dd4f597705899e09a968f793491e4b704cae33a40dc02"
  | token => token

def settings : Settings :=
  { hashToken := digest, refreshTokenTtlSeconds := 2592000, passwordResetTokenTtlSeconds := 3600,
    passwordResetDevReturnToken := true }

def users : Std.ExtTreeMap UUID UserRow :=
  (∅ : Std.ExtTreeMap UUID UserRow).insert 1
    { identifiers := ["a@example.org"], passwordHash := some "argon2", status := .active }

abbrev Moves := List (Move Request (TxChoice Reply) Nat)

def issues (n : Nat) (token : String) (time : Time) : Moves :=
  [.run n (.env (.text token)), .run n (.env (.uuid n)), .run n (.env (.time time)), .run n .ok, .run n .ok, .run n .ok]

def loggedIn : Moves :=
  [.start (.login "a@example.org" "secret" none), .run 0 .ok, .run 0 (.env (.verified true)), .run 0 (.env (.mfa none))] ++
    issues 0 "r1" 0

def reads (n : Nat) : Moves := [.run n .ok, .run n (.env (.time 5)), .run n .ok]

def reused : Moves :=
  loggedIn ++ [.start (.rotate "r1")] ++ reads 1 ++ issues 1 "r2" 6 ++
    [.start (.rotate "r1"), .run 2 .ok, .run 2 (.env (.time 7)), .run 2 (.env (.time 7)), .run 2 .ok, .run 2 .ok,
      .run 2 .ok, .run 2 .ok]

def exchangedTwice : Moves :=
  loggedIn ++ [.start (.rotate "r1"), .start (.rotate "r1")] ++ reads 1 ++ reads 2 ++ issues 1 "r2" 6 ++ issues 2 "r3" 6

def missedBefore : Moves :=
  loggedIn ++ [.start (.requestPasswordReset "a@example.org"), .run 1 .ok, .run 1 (.env (.text "t1")),
    .run 1 (.env (.time 1)), .run 1 .ok, .run 1 .ok, .run 1 (.env (.time 1)), .run 1 .ok, .run 1 .ok, .run 1 .ok,
    .start (.confirmPasswordReset "t1" "new secret"), .run 2 .ok, .run 2 (.env (.time 2)), .run 2 .ok,
    .run 2 (.env (.text "argon2 of new")), .run 2 (.env (.time 2)), .run 2 .ok, .run 2 .ok, .start (.rotate "r1")] ++
    reads 3 ++ issues 3 "r2" 6 ++ [.run 2 .ok]

def missedCommit : Moves := missedBefore ++ [.run 2 .ok]

def missed : Moves := missedCommit ++ [.start (.rotate "r2")] ++ reads 4 ++ issues 4 "r3" 7
end Sample

theorem tokens_single_use_reused : let reached := (system Sample.settings).exec (start Sample.users) Sample.reused
    ∀ n m token a b, reached.returned? n = some (.rotate token, .ok a) →
      reached.returned? m = some (.rotate token, .ok b) → n = m :=
  (tokens_single_use Sample.settings Sample.users Sample.reused (by decide +kernel)).1

/-- A refresh token is exchanged by two requests, and a session that was open before a password reset committed is
    exchanged after it. -/
theorem refresh_token_exchanged_twice :
    let twice := (system Sample.settings).exec (start Sample.users) Sample.exchangedTwice
    let earlier := (system Sample.settings).exec (start Sample.users) Sample.missedBefore
    let later := (system Sample.settings).exec (start Sample.users) Sample.missedCommit
    let reached := (system Sample.settings).exec (start Sample.users) Sample.missed
    (twice.returned? 1 = some (.rotate "r1", .ok (some "r2")) ∧
      twice.returned? 2 = some (.rotate "r1", .ok (some "r3"))) ∧
    (atCommit? earlier 2 = some (.confirmPasswordReset "t1" "new secret") ∧
      later.returned? 2 = some (.confirmPasswordReset "t1" "new secret", .ok none) ∧
      later.returned? 3 = some (.rotate "r1", .ok (some "r2")) ∧ later.returned? 4 = none ∧
      reached.returned? 4 = some (.rotate "r2", .ok (some "r3"))) := by
  refine ⟨⟨?_, ?_⟩, ?_, ?_, ?_, ?_, ?_⟩ <;> decide +kernel

end LinkMint.Identity.Sessions
