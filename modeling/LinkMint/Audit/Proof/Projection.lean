import LinkMint.Audit.Append
import LinkMint.Audit.Proof.TamperEvidence

/-!
# What is shown and what is hashed

The verdicts, `valid` of a proof and the walk of `VerifyRange`, read `canonical_bytes` and the
two hash columns; the columns that are shown are a projection that `Append` writes from the same
input.
-/

namespace LinkMint.Audit

open LinkMint.Lib LinkMint.Chain

section
variable (lib : Library)

def shownJSON (raw : Bytes) : Option (Value String) := if raw = [] then some .null else lib.value raw

def EntryView.value (view : EntryView) : Option (Value String) := do
  let before ← shownJSON lib view.before
  let after ← shownJSON lib view.after
  let context ← shownJSON lib view.context
  return canonicalObject view.occurredAt view.action view.resource
    (.obj [("id", view.actorID.elim .null .str), ("kind", .str view.actorKind)]) before after context

def EntryView.Denotes (view : EntryView) (text : Bytes) : Prop :=
  ∃ shown hashed, view.value lib = some shown ∧ lib.value text = some hashed ∧ shown.denoted = hashed.denoted

def AppendInput.json (input : AppendInput) : List Bytes := [input.before, input.after, input.context]

structure Library.LawfulAt (input : AppendInput) : Prop where
  decode : ∀ raw ∈ input.json, ∀ v, lib.decode (lib.trimSpace raw) = some v → lib.value (lib.trimSpace raw) = some v
  marshal : ∀ before after context, decodeJSON lib input.before = some before →
    decodeJSON lib input.after = some after → decodeJSON lib input.context = some context →
      let object := canonicalObject (lib.rfc3339 (truncate input.occurredAt)) input.action input.resource
        (canonicalActor (actorID lib input.actor) input.actor.kind) before after context
      lib.value (lib.marshal object) = some object
  jsonb : ∀ raw ∈ input.json, ∀ text v, lib.jsonb (lib.trimSpace raw) = some text →
    lib.value (lib.trimSpace raw) = some v → text ≠ [] ∧ ∃ w, lib.value text = some w ∧ w.denoted = v.denoted
  uuidText : ∀ id, input.actor.id = some id → lib.uuidText id ≠ ""
end

section
variable {lib : Library} {env : Env}

theorem denoted_canonicalObject {t a r : String} {actor b c d b' c' d' : Value String} (hb : b.denoted = b'.denoted)
    (hc : c.denoted = c'.denoted) (hd : d.denoted = d'.denoted) :
    (canonicalObject t a r actor b c d).denoted = (canonicalObject t a r actor b' c' d').denoted := by
  simp only [Value.denoted] at hb hc hd ⊢
  simp only [canonicalObject, Value.map, Value.mapFields, hb, hc, hd]

theorem shownJSON_of_column {input : AppendInput} (lawful : lib.LawfulAt input) {raw text : Bytes}
    {v : Value String} (hmem : raw ∈ input.json) (hdecode : decodeJSON lib raw = some v) (hcolumn : jsonbColumn lib raw = some text) :
    ∃ w, shownJSON lib text = some w ∧ w.denoted = v.denoted := by
  unfold decodeJSON at hdecode
  unfold jsonbColumn at hcolumn
  by_cases hnull : isNull lib raw = true
  · rw [if_pos hnull] at hdecode hcolumn
    cases hdecode
    cases hcolumn
    exact ⟨.null, rfl, rfl⟩
  · rw [if_neg hnull] at hdecode hcolumn
    obtain ⟨hne, w, hw, hsame⟩ := lawful.jsonb raw hmem _ _ hcolumn (lawful.decode raw hmem _ hdecode)
    refine ⟨w, ?_, hsame⟩
    rw [shownJSON, if_neg hne, hw]

theorem canonicalActor_eq {input : AppendInput} (lawful : lib.LawfulAt input) :
    canonicalActor (actorID lib input.actor) input.actor.kind =
      .obj [("id", (input.actor.id.map lib.uuidText).elim .null .str), ("kind", .str input.actor.kind)] := by
  unfold canonicalActor actorID
  cases hid : input.actor.id with
  | none => simp
  | some id => simp [lawful.uuidText id hid]

theorem denotes_of_stored {input : AppendInput} (lawful : lib.LawfulAt input) {prev : Bytes} {e c : Columns}
    (hbuild : buildEntry lib env input prev = some e) (hstored : e.stored lib = some c) :
    (toView lib c).Denotes lib c.canonical := by
  obtain ⟨canon, hcanon, rfl⟩ := buildEntry_eq_some hbuild
  obtain ⟨before', after', context', hbefore', hafter', hcontext', rfl⟩ := Columns.stored_eq_some hstored
  simp only [canonical, Option.bind_eq_bind, Option.pure_def, Option.bind_eq_some_iff, Option.some.injEq] at hcanon
  obtain ⟨before, hbefore, after, hafter, context, hcontext, rfl⟩ := hcanon
  obtain ⟨b, hb, hbsame⟩ := shownJSON_of_column lawful (by simp [AppendInput.json]) hbefore hbefore'
  obtain ⟨a, ha, hasame⟩ := shownJSON_of_column lawful (by simp [AppendInput.json]) hafter hafter'
  obtain ⟨x, hx, hxsame⟩ := shownJSON_of_column lawful (by simp [AppendInput.json]) hcontext hcontext'
  refine ⟨_, _, ?_, lawful.marshal _ _ _ hbefore hafter hcontext, denoted_canonicalObject hbsame hasame hxsame⟩
  simp only [EntryView.value, toView, hb, ha, hx, Option.bind_eq_bind, Option.bind_some, Option.pure_def,
    canonicalActor_eq lawful]

theorem entryHash_of_stored {input : AppendInput} {prev : Bytes} {e c : Columns}
    (hbuild : buildEntry lib env input prev = some e) (hstored : e.stored lib = some c) :
    c.entryHash = hash env c.prevHash c.canonical := by
  obtain ⟨canon, -, rfl⟩ := buildEntry_eq_some hbuild
  obtain ⟨_, _, _, -, -, -, rfl⟩ := Columns.stored_eq_some hstored
  rfl

def Table.Covers (t : Table) (start stop : Option Int) (id : Int) : Prop :=
  ∃ startID endID, t.boundID List.min? (notBefore start) = some startID ∧
    t.boundID List.max? (notAfter stop) = some endID ∧ startID ≤ id ∧ id ≤ endID

def Table.Passes (lib : Library) (env : Env) (t : Table) (id : Int) : Prop :=
  (∃ view, t.getEntry lib env id = some (view, true)) ∨
    ∃ start stop, t.Covers start stop id ∧ (t.verifyRange env start stop).ok = true

theorem Chained.self {expected : Bytes} {es : List Entry} {e : Entry} (h : Chained env expected es) (he : e ∈ es) :
    e.entryHash = hash env e.prevHash e.canonical := by
  induction es generalizing expected with
  | nil => cases he
  | cons e' es ih =>
    obtain ⟨hlink, hself, hrest⟩ := h
    rcases List.mem_cons.mp he with rfl | hmem
    · rw [hself, hlink]
    · exact ih hrest hmem

namespace Table
theorem Passes.self {t : Table} {id : Int} {c : Columns} (hrow : t[id]? = some c) (h : t.Passes lib env id) :
    c.entryHash = hash env c.prevHash c.canonical := by
  rcases h with ⟨view, hget⟩ | ⟨start, stop, ⟨startID, endID, hstart, hend, hle, hge⟩, hok⟩
  · rw [getEntry, hrow, Option.map_some] at hget
    have hvalid := (Prod.mk.inj (Option.some.inj hget)).2
    exact (beq_iff_eq.mp hvalid).symm
  · have horder : ¬ endID < startID := not_lt.mpr (hle.trans hge)
    simp only [verifyRange, hstart, hend, if_neg horder, walk_ok] at hok
    exact hok.self (e := { c with entryID := id }) (List.mem_filter.mpr ⟨mem_rows_iff.mpr hrow, decide_eq_true ⟨hle, hge⟩⟩)
end Table

structure Columns.ShownAs (lib : Library) (c written : Columns) : Prop where
  shown : toView lib c = toView lib written
  hashed : c.canonical = written.canonical ∨ c.prevHash = written.prevHash ∧ c.entryHash = written.entryHash
end

/-- **What a passing verdict covers.** -/
theorem passing_entry_shows_hashed (lib : Library) (env : Env) (t : Table) (id : Int) (c : Columns)
    (hrow : t[id]? = some c) (passes : t.Passes lib env id) :
    c.entryHash = hash env c.prevHash c.canonical ∧
      ∀ input prev e written, lib.LawfulAt input → buildEntry lib env input prev = some e →
        e.stored lib = some written → c.ShownAs lib written →
        (env.sha256 (c.prevHash ++ c.canonical) = env.sha256 (written.prevHash ++ written.canonical) →
          c.prevHash ++ c.canonical = written.prevHash ++ written.canonical) →
        (toView lib c).Denotes lib c.canonical := by
  have hself := passes.self hrow
  refine ⟨hself, fun input prev e written lawful hbuild hstored hshown hfree => ?_⟩
  have hdenotes := denotes_of_stored lawful hbuild hstored
  have hcanonical : c.canonical = written.canonical := by
    rcases hshown.hashed with hsame | ⟨hprev, hentry⟩
    · exact hsame
    · -- the two texts have the entry's one hash
      have hhash : hash env c.prevHash c.canonical = hash env written.prevHash written.canonical := by
        rw [← hself, hentry, entryHash_of_stored hbuild hstored]
      have hstrings := hfree (hashBytes_injective hhash)
      rw [hprev] at hstrings
      exact List.append_cancel_left hstrings
  rw [hshown.shown, hcanonical]
  exact hdenotes

namespace Sample
attribute [local irreducible] suspended suspendedHash

@[irreducible] def reason : Bytes := bytesOf "\x7b\"reason\":\"kyc\"\x7d"

@[irreducible] def reasonText : Bytes := bytesOf "\x7b\"reason\": \"kyc\"\x7d"

def reasonValue : Value String := .obj [("reason", .str "kyc")]

def suspendedObject : Value String :=
  canonicalObject "2023-11-14T22:15:00Z" "merchant.suspend" "merchant:7" (canonicalActor "" "system") .null .null
    reasonValue

def library : Library where
  value raw :=
    if raw = reason ∨ raw = reasonText then some reasonValue
    else if raw = suspended then some suspendedObject
    else none
  decode raw := if raw = reason then some reasonValue else none
  valid raw := raw == reason
  marshal _ := suspended
  jsonb raw := if raw = reason then some reasonText else none
  rfc3339 _ := "2023-11-14T22:15:00Z"
  uuidText _ := "6f1c7a52-3d0b-4c55-9f5e-0d6f1c1f2a10"
  trimSpace raw := raw

def suspendInput : AppendInput where
  occurredAt := 1700000100000000000
  actor := { id := none, kind := "system" }
  action := "merchant.suspend"
  resource := "merchant:7"
  context := reason

def suspendRow : Columns := { suspension with context := reasonText }

def rewritten : Columns := { suspendRow with action := "merchant.reinstate" }

def single (c : Columns) : Table := (∅ : Table).insert 1 c

theorem suspended_ne : suspended ≠ reason ∧ suspended ≠ reasonText ∧ reasonText ≠ reason := by decide +kernel

theorem value_suspended : library.value suspended = some suspendedObject := by
  have h := suspended_ne
  simp [library, h.1, h.2.1]

theorem decodeJSON_nil : decodeJSON library [] = some .null := rfl

theorem decodeJSON_reason : decodeJSON library reason = some reasonValue := by
  have hne : ¬ isNull library reason = true := by decide +kernel
  rw [decodeJSON, if_neg hne]
  simp [library]

theorem lawfulAt : library.LawfulAt suspendInput where
  decode raw _ v h := by
    have hraw : raw = reason := by
      by_contra hne
      simp [library, hne] at h
    subst hraw
    simpa [library] using h
  marshal before after context hb ha hc := by
    obtain rfl := Option.some.inj (decodeJSON_nil.symm.trans hb)
    obtain rfl := Option.some.inj (decodeJSON_nil.symm.trans ha)
    obtain rfl := Option.some.inj (decodeJSON_reason.symm.trans hc)
    have hobject : canonicalObject (library.rfc3339 (truncate suspendInput.occurredAt)) suspendInput.action
        suspendInput.resource (canonicalActor (actorID library suspendInput.actor) suspendInput.actor.kind) .null .null
        reasonValue = suspendedObject := rfl
    rw [hobject]
    exact value_suspended
  jsonb raw _ text v h hv := by
    have hraw : raw = reason := by
      by_contra hne
      simp [library, hne] at h
    subst hraw
    have htext : text = reasonText := by simpa [library] using h.symm
    have hvalue : v = reasonValue := by simpa [library] using hv.symm
    subst htext hvalue
    exact ⟨by decide +kernel, reasonValue, by simp [library], rfl⟩
  uuidText id h := by cases h

theorem build_suspend : ∃ e, buildEntry library env suspendInput genesis = some e ∧ e.stored library = some suspendRow := by
  have hcanonical : canonical library suspendInput = some suspended := by
    simp only [canonical, suspendInput, decodeJSON_nil, decodeJSON_reason, Option.bind_eq_bind, Option.bind_some]
    rfl
  have hcontext : jsonbColumn library reason = some reasonText := by
    have hne : ¬ isNull library reason = true := by decide +kernel
    rw [jsonbColumn, if_neg hne]
    simp [library]
  have hnull : jsonbColumn library [] = some [] := rfl
  have hne : reasonText ≠ [] := by decide +kernel
  refine ⟨{ suspension with context := reason }, ?_, ?_⟩
  · simp only [buildEntry, hcanonical, Option.bind_eq_bind, Option.bind_some, hash, sha256_suspended]
    rfl
  · simp only [Columns.stored, suspension, hnull, hcontext, Option.bind_eq_bind, Option.bind_some, if_neg hne]
    rfl

theorem passes_single {c : Columns} (hprev : c.prevHash = genesis) (hentry : c.entryHash = hashBytes suspendedHash)
    (hcanonical : c.canonical = suspended) : (∃ view, (single c).getEntry library env 1 = some (view, true)) ∧
      ((single c).verifyRange env none none).ok = true := by
  have hself : hash env c.prevHash c.canonical = c.entryHash := by
    rw [hprev, hentry, hcanonical, hash, sha256_suspended]
  constructor
  · refine ⟨toView library c, ?_⟩
    simp [Table.getEntry, single, Columns.proofValid, hself]
  · have hrows : (single c).rows = [{ c with entryID := 1 }] := rfl
    rw [Table.verifyRange_unbounded, walk_ok, hrows]
    exact ⟨hprev, by rw [← hprev]; exact hself.symm, trivial⟩

theorem passes_suspendRow : ∃ view, (single suspendRow).getEntry library env 1 = some (view, true) :=
  (passes_single rfl rfl rfl).1

theorem passes_rewritten : (∃ view, (single rewritten).getEntry library env 1 = some (view, true)) ∧
    ((single rewritten).verifyRange env none none).ok = true :=
  passes_single rfl rfl rfl

theorem passing_entry_shows_hashed_suspended : (toView library suspendRow).Denotes library suspended := by
  obtain ⟨e, hbuild, hstored⟩ := build_suspend
  have hrow : (single suspendRow)[(1 : Int)]? = some suspendRow := by simp [single]
  exact (passing_entry_shows_hashed library env (single suspendRow) 1 suspendRow hrow (.inl passes_suspendRow)).2
    suspendInput genesis e suspendRow lawfulAt hbuild hstored ⟨rfl, .inl rfl⟩ (fun _ => rfl)

/-- With another action in its column the entry still has a valid proof and the whole table still verifies, and
    what is shown is not what was hashed. -/
theorem rewritten_action_passes : (∃ view, (single rewritten).getEntry library env 1 = some (view, true)) ∧
      ((single rewritten).verifyRange env none none).ok = true ∧
      ¬ (toView library rewritten).Denotes library rewritten.canonical := by
  refine ⟨passes_rewritten.1, passes_rewritten.2, ?_⟩
  rintro ⟨shown, hashed, hshown, hhashed, hsame⟩
  obtain rfl := Option.some.inj (value_suspended.symm.trans hhashed)
  have hcontext : shownJSON library reasonText = some reasonValue := by
    have hne : reasonText ≠ [] := by decide +kernel
    rw [shownJSON, if_neg hne]
    simp [library]
  have hnull : shownJSON library [] = some .null := rfl
  simp only [EntryView.value, toView, rewritten, suspendRow, suspension, hcontext, hnull,
    Option.bind_eq_bind, Option.bind_some, Option.pure_def, Option.some.injEq] at hshown
  subst hshown
  simp [Value.denoted, canonicalObject, suspendedObject, Value.map, Value.mapFields] at hsame
end Sample
end LinkMint.Audit
