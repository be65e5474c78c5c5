import LinkMint.Invoices.Service

/-!
# Paid invoices stay paid

Nothing keeps the row a request has read: a merchant who voids an invoice while its payment is
booked overwrites PAID.
-/

namespace LinkMint.Invoices

open LinkMint.Lib

abbrev Writes := List (Write UUID InvoiceRow Event)

inductive Shape : Writes → Prop
  | create (invoice merchantId : UUID) (dueAt : Time) :
      Shape [.insert invoice { merchantId, dueAt }, .emit (.created invoice)]
  | finalize (invoice : UUID) (plId : String) :
      Shape [.update invoice (InvoiceRow.finalized plId), .emit (.finalized invoice plId)]
  | void (invoice : UUID) : Shape [.update invoice InvoiceRow.voided, .emit (.voided invoice)]
  | pay (invoice : UUID) (plId : String) (now : Time) :
      Shape [.update invoice (InvoiceRow.paid now), .emit (.paid invoice plId)]
  | sweep (invoices : List UUID) : Shape (invoices.flatMap overdueWrites)

def Tables.status? (d : Tables) (invoice : UUID) : Option Status := (Tables.getInvoice d invoice).map (·.status)

def Event.Legal (d : Tables) : Event → Prop
  | .created _ => True
  | .finalized invoice _ => Tables.status? d invoice = some .draft
  | .voided invoice => Tables.status? d invoice ≠ some .paid ∧ Tables.status? d invoice ≠ some .voided
  | .paid invoice _ => ∃ s ∈ Tables.status? d invoice, s.Payable
  | .overdue invoice => Tables.status? d invoice = some .opened

instance (d : Tables) : DecidablePred (Event.Legal d)
  | .created _ => .isTrue trivial
  | .finalized invoice _ => inferInstanceAs (Decidable (Tables.status? d invoice = some .draft))
  | .voided invoice =>
      inferInstanceAs (Decidable (Tables.status? d invoice ≠ some .paid ∧ Tables.status? d invoice ≠ some .voided))
  | .paid invoice _ => inferInstanceAs (Decidable (∃ s ∈ Tables.status? d invoice, s.Payable))
  | .overdue invoice => inferInstanceAs (Decidable (Tables.status? d invoice = some .opened))

def Fresh (_ : Request) (ws : Writes) (d : Tables) : Prop := ∀ e ∈ emitted ws, Event.Legal d e

instance (r : Request) (ws : Writes) (d : Tables) : Decidable (Fresh r ws d) :=
  inferInstanceAs (Decidable (∀ e ∈ emitted ws, Event.Legal d e))

def Booked (d : Tables) (plId : String) : Prop := ∀ x ∈ d.rows, x.2.plId = some plId → ¬ x.2.status.Payable

instance (d : Tables) (plId : String) : Decidable (Booked d plId) :=
  inferInstanceAs (Decidable (∀ x ∈ d.rows, x.2.plId = some plId → ¬ x.2.status.Payable))

def Honest : Request → Ask → Tables → Markers → Prop
  | .deliver name payload, .setNX key, d, markers =>
      key ∈ markers → name = chainPaylinkVerified → ∀ plId ∈ payload.payLink?, Booked d plId
  | _, _, _, _ => True

instance : ∀ r x d markers, Decidable (Honest r x d markers)
  | .deliver name payload, .setNX key, d, markers => inferInstanceAs
      (Decidable (key ∈ markers → name = chainPaylinkVerified → ∀ plId ∈ payload.payLink?, Booked d plId))
  | .deliver _ _, .uuid4, _, _ | .deliver _ _, .now, _, _ | .deliver _ _, .createPaylink _, _, _
  | .deliver _ _, .delete _, _, _ | .deliver _ _, .drop _, _, _ => .isTrue trivial
  | .create _ _, _, _, _ | .finalize _ _, _, _, _ | .void _ _, _, _, _ | .sweepOverdue, _, _, _
  | .dropMarker _, _, _, _ => .isTrue trivial

def Linked (d : Tables) : Prop := ∀ invoice row, Tables.getInvoice d invoice = some row → row.status = .draft → row.plId = none

def contract : TxContract Ask UUID InvoiceRow Event Markers Request where
  inv d _ := Linked d ∧ ∀ x ∈ d.history, Shape x.2
  does _ ws := Shape ws
  commits := Fresh
  asks := Honest

inductive Goes : InvoiceRow → InvoiceRow → Prop
  | stay (row : InvoiceRow) : Goes row row
  | finalize {row : InvoiceRow} (plId : String) (h : row.status = .draft) : Goes row (row.finalized plId)
  | void {row : InvoiceRow} (h : row.status ≠ .paid) (h' : row.status ≠ .voided) : Goes row row.voided
  | pay {row : InvoiceRow} (now : Time) (h : row.status.Payable) : Goes row (row.paid now)
  | overdue {row : InvoiceRow} (h : row.status = .opened) : Goes row row.overdue

section
variable {d : Tables} {ws : Writes} {invoice : UUID} {row : InvoiceRow}

theorem getInvoice_update {target : UUID} {f : InvoiceRow → InvoiceRow} {e : Event} :
    Tables.getInvoice (applyAll [.update target f, .emit e] d) invoice =
      if target = invoice then (Tables.getInvoice d invoice).map f else Tables.getInvoice d invoice := by
  simp [Tables.getInvoice, find?_applyAll, Write.effect]

theorem getInvoice_sweep {invoices : List UUID} :
    Tables.getInvoice (applyAll (invoices.flatMap overdueWrites) d) invoice =
      if invoice ∈ invoices then (Tables.getInvoice d invoice).map InvoiceRow.overdue else Tables.getInvoice d invoice := by
  induction invoices generalizing d with
  | nil => simp [applyAll]
  | cons target invoices ih =>
    rw [List.flatMap_cons, applyAll_append, ih, overdueWrites, getInvoice_update]
    have htwice : InvoiceRow.overdue ∘ InvoiceRow.overdue = InvoiceRow.overdue := rfl
    by_cases htarget : target = invoice
    · by_cases hmem : invoice ∈ invoices <;> simp [htarget, hmem, htwice]
    · by_cases hmem : invoice ∈ invoices <;> simp [htarget, Ne.symm htarget, hmem]

theorem emitted_sweep {invoices : List UUID} : emitted (invoices.flatMap overdueWrites) = invoices.map .overdue := by
  induction invoices with
  | nil => rfl
  | cons target invoices ih =>
    rw [List.flatMap_cons, emitted_append, ih]
    rfl

theorem status?_of_getInvoice (h : Tables.getInvoice d invoice = some row) : Tables.status? d invoice = some row.status := by
  rw [Tables.status?, h]
  rfl

theorem goes_update {target : UUID} {f : InvoiceRow → InvoiceRow} {e : Event} (hrow : Tables.getInvoice d invoice = some row)
    (hgoes : target = invoice → Goes row (f row)) :
    ∃ row', Tables.getInvoice (applyAll [.update target f, .emit e] d) invoice = some row' ∧ Goes row row' := by
  rw [getInvoice_update, hrow]
  by_cases htarget : target = invoice
  · exact ⟨f row, by simp [htarget], hgoes htarget⟩
  · exact ⟨row, by simp [htarget], .stay row⟩

theorem goes_of_shape (hshape : Shape ws) (hfresh : ∀ e ∈ emitted ws, Event.Legal d e)
    (hrow : Tables.getInvoice d invoice = some row) :
    ∃ row', Tables.getInvoice (applyAll ws d) invoice = some row' ∧ Goes row row' := by
  cases hshape with
  | create target merchantId dueAt =>
    refine ⟨row, ?_, .stay row⟩
    change Db.find? d invoice = some row at hrow
    simp [Tables.getInvoice, find?_applyAll, Write.effect, hrow]
  | finalize target plId =>
    refine goes_update hrow fun htarget => .finalize plId ?_
    have hlegal : Tables.status? d target = some .draft := hfresh (.finalized target plId) (List.mem_singleton_self _)
    rw [htarget, status?_of_getInvoice hrow] at hlegal
    exact Option.some.inj hlegal
  | void target =>
    refine goes_update hrow fun htarget => ?_
    have hlegal : Tables.status? d target ≠ some .paid ∧ Tables.status? d target ≠ some .voided :=
      hfresh (.voided target) (List.mem_singleton_self _)
    rw [htarget, status?_of_getInvoice hrow] at hlegal
    exact .void (fun h => hlegal.1 (congrArg some h)) (fun h => hlegal.2 (congrArg some h))
  | pay target plId now =>
    refine goes_update hrow fun htarget => .pay now ?_
    obtain ⟨s, hs, hpayable⟩ : ∃ s ∈ Tables.status? d target, s.Payable :=
      hfresh (.paid target plId) (List.mem_singleton_self _)
    rw [htarget, status?_of_getInvoice hrow] at hs
    rwa [Option.some.inj hs]
  | sweep invoices =>
    rw [getInvoice_sweep, hrow]
    by_cases hmem : invoice ∈ invoices
    · have hlegal : Tables.status? d invoice = some .opened := by
        refine hfresh (.overdue invoice) ?_
        rw [emitted_sweep]
        exact List.mem_map_of_mem hmem
      rw [status?_of_getInvoice hrow] at hlegal
      exact ⟨row.overdue, by simp [hmem], .overdue (Option.some.inj hlegal)⟩
    · exact ⟨row, by simp [hmem], .stay row⟩

theorem draft_of_new (hshape : Shape ws) (hnone : Tables.getInvoice d invoice = none)
    (hrow : Tables.getInvoice (applyAll ws d) invoice = some row) : row.plId = none := by
  cases hshape with
  | create target merchantId dueAt =>
    change Db.find? d invoice = none at hnone
    simp only [Tables.getInvoice, find?_applyAll, Write.effect, hnone, List.foldl_cons, List.foldl_nil] at hrow
    split at hrow
    · cases hrow
      rfl
    · cases hrow
  | finalize target plId =>
    rw [getInvoice_update, hnone] at hrow
    simp at hrow
  | void target =>
    rw [getInvoice_update, hnone] at hrow
    simp at hrow
  | pay target plId now =>
    rw [getInvoice_update, hnone] at hrow
    simp at hrow
  | sweep invoices =>
    rw [getInvoice_sweep, hnone] at hrow
    simp at hrow

theorem Linked.transact (h : Linked d) (n : Nat) (hshape : Shape ws) (hfresh : ∀ e ∈ emitted ws, Event.Legal d e) :
    Linked (d.transact n ws) := by
  intro invoice row' hrow' hdraft
  change Tables.getInvoice (applyAll ws d) invoice = some row' at hrow'
  cases hrow : Tables.getInvoice d invoice with
  | none => exact draft_of_new hshape hrow hrow'
  | some row =>
    obtain ⟨_, hfound, hgoes⟩ := goes_of_shape hshape hfresh hrow
    obtain rfl := Option.some.inj (hfound.symm.trans hrow')
    cases hgoes with
    | stay => exact h invoice _ hrow hdraft
    | finalize | void | pay | overdue => cases hdraft
end

theorem Goes.closed {row row' : InvoiceRow} {s : Status} (h : Goes row row') (hs : s = .paid ∨ s = .voided)
    (hrow : row.status = s) : row'.status = s := by
  cases h with
  | stay => exact hrow
  | finalize plId h =>
    rw [hrow] at h
    subst h
    simp at hs
  | void h h' =>
    rw [hrow] at h h'
    simp [h, h'] at hs
  | pay now h =>
    rw [hrow] at h
    rcases hs with rfl | rfl <;> simp [Status.Payable] at h
  | overdue h =>
    rw [hrow] at h
    subst h
    simp at hs

theorem Goes.plId {row row' : InvoiceRow} {plId : String} (h : Goes row row') (hdraft : row.status = .draft → row.plId = none)
    (hrow : row.plId = some plId) : row'.plId = some plId := by
  cases h with
  | finalize _ h =>
    rw [hdraft h] at hrow
    cases hrow
  | stay | void | pay | overdue => exact hrow

section
variable {d d' : Tables}

theorem closed_stays (hevolves : contract.Evolves d d') {invoice : UUID} {s : Status} (hs : s = .paid ∨ s = .voided)
    (h : Tables.status? d invoice = some s) : Tables.status? d' invoice = some s := by
  refine hevolves.invariant (I := fun d => Tables.status? d invoice = some s) ?_ h
  intro n r ws d h hdoes hcommits _ _
  obtain ⟨row, hrow, hstatus⟩ := Option.map_eq_some_iff.mp h
  obtain ⟨row', hrow', hgoes⟩ := goes_of_shape hdoes hcommits hrow
  exact Option.map_eq_some_iff.mpr ⟨row', hrow', hgoes.closed hs hstatus⟩

theorem plId_stays (hevolves : contract.Evolves d d') (hlinked : Linked d) {invoice : UUID} {plId : String}
    (h : ∃ row, Tables.getInvoice d invoice = some row ∧ row.plId = some plId) :
    ∃ row, Tables.getInvoice d' invoice = some row ∧ row.plId = some plId := by
  have hboth : Linked d' ∧ ∃ row, Tables.getInvoice d' invoice = some row ∧ row.plId = some plId := by
    refine hevolves.invariant
      (I := fun d => Linked d ∧ ∃ row, Tables.getInvoice d invoice = some row ∧ row.plId = some plId) ?_ ⟨hlinked, h⟩
    rintro n r ws d ⟨hlinked, row, hrow, hplId⟩ hdoes hcommits - -
    obtain ⟨row', hrow', hgoes⟩ := goes_of_shape hdoes hcommits hrow
    exact ⟨hlinked.transact n hdoes hcommits, row', hrow', hgoes.plId (hlinked invoice row hrow) hplId⟩
  exact hboth.2
end

def Event.Pays (invoice : UUID) : Event → Prop
  | .paid i _ => i = invoice
  | _ => False

def Event.Reopens (invoice : UUID) : Event → Prop
  | .paid i _ | .voided i | .overdue i => i = invoice
  | _ => False

structure BookedOnce (d : Tables) : Prop where
  order : d.outbox.Pairwise fun e e' => ∀ invoice, e.Pays invoice → ¬ e'.Reopens invoice
  paid : ∀ e ∈ d.outbox, ∀ invoice, e.Pays invoice → Tables.status? d invoice = some .paid

theorem Event.not_reopens {d : Tables} {e : Event} {invoice : UUID} (hlegal : e.Legal d)
    (hpaid : Tables.status? d invoice = some .paid) : ¬ e.Reopens invoice := by
  intro hreopens
  cases e with
  | created | finalized => exact hreopens
  | voided i =>
    obtain rfl : i = invoice := hreopens
    exact hlegal.1 hpaid
  | paid i plId =>
    obtain rfl : i = invoice := hreopens
    obtain ⟨s, hs, hpayable⟩ := hlegal
    rw [hpaid] at hs
    cases hs
    rcases hpayable with h | h <;> cases h
  | overdue i =>
    obtain rfl : i = invoice := hreopens
    have hboth : some Status.paid = some Status.opened := hpaid.symm.trans hlegal
    cases hboth

theorem Shape.pays {ws : Writes} (h : Shape ws) {e : Event} (he : e ∈ emitted ws) {invoice : UUID} (hpays : e.Pays invoice) :
    emitted ws = [e] ∧ ∃ now, ws = [.update invoice (InvoiceRow.paid now), .emit e] := by
  cases h with
  | create | finalize | void =>
    obtain rfl := List.mem_singleton.mp he
    exact hpays.elim
  | pay target plId now =>
    obtain rfl := List.mem_singleton.mp he
    obtain rfl : target = invoice := hpays
    exact ⟨rfl, now, rfl⟩
  | sweep invoices =>
    rw [emitted_sweep] at he
    obtain ⟨i, -, rfl⟩ := List.mem_map.mp he
    exact hpays.elim

theorem BookedOnce.transact {d : Tables} {ws : Writes} (h : BookedOnce d) (n : Nat) (hshape : Shape ws)
    (hfresh : ∀ e ∈ emitted ws, Event.Legal d e) : BookedOnce (d.transact n ws) := by
  have houtbox : (d.transact n ws).outbox = d.outbox ++ emitted ws := outbox_applyAll
  have hstays : ∀ invoice, Tables.status? d invoice = some .paid → Tables.status? (d.transact n ws) invoice = some .paid := by
    intro invoice hpaid
    obtain ⟨row, hrow, hstatus⟩ := Option.map_eq_some_iff.mp hpaid
    obtain ⟨row', hrow', hgoes⟩ := goes_of_shape hshape hfresh hrow
    exact Option.map_eq_some_iff.mpr ⟨row', hrow', hgoes.closed (.inl rfl) hstatus⟩
  constructor
  · rw [houtbox, List.pairwise_append]
    refine ⟨h.order, ?_, ?_⟩
    · -- within one transaction
      by_cases hsome : ∃ e ∈ emitted ws, ∃ invoice, e.Pays invoice
      · obtain ⟨e, he, invoice, hpays⟩ := hsome
        rw [(hshape.pays he hpays).1]
        exact List.pairwise_singleton _ _
      · exact List.pairwise_of_forall_mem_list fun e he e' _ invoice hpays => absurd ⟨e, he, invoice, hpays⟩ hsome
    · intro e he e' he' invoice hpays
      exact Event.not_reopens (hfresh e' he') (h.paid e he invoice hpays)
  · intro e he invoice hpays
    rw [houtbox, List.mem_append] at he
    rcases he with he | he
    · exact hstays invoice (h.paid e he invoice hpays)
    · obtain ⟨s, hs, -⟩ : ∃ s ∈ Tables.status? d invoice, s.Payable := by
        have hlegal := hfresh e he
        cases e with
        | paid i plId =>
          obtain rfl : i = invoice := hpays
          exact hlegal
        | created | finalized | voided | overdue => exact hpays.elim
      obtain ⟨row, hrow, -⟩ := Option.map_eq_some_iff.mp hs
      obtain ⟨-, now, rfl⟩ := hshape.pays he hpays
      refine Option.map_eq_some_iff.mpr ⟨row.paid now, ?_, rfl⟩
      change Tables.getInvoice (applyAll _ d) invoice = _
      rw [getInvoice_update, if_pos rfl, hrow]
      rfl

theorem bookedOnce_evolves {d d' : Tables} (hevolves : contract.Evolves d d') (h : BookedOnce d) : BookedOnce d' :=
  hevolves.invariant (fun n _ _ _ h hdoes hcommits _ _ => h.transact n hdoes hcommits) h

section
variable {n : Nat} {r : Request} {w : World} {ws : Writes}

theorem inv_transact {d : Tables} {markers : Markers} (hinv : contract.inv d markers) (hshape : Shape ws)
    (hfresh : Fresh r ws d) : contract.inv (d.transact n ws) markers := by
  refine ⟨hinv.1.transact n hshape hfresh, fun x hx => ?_⟩
  rw [Db.transact, List.mem_append, List.mem_singleton] at hx
  rcases hx with hx | rfl
  · exact hinv.2 x hx
  · exact hshape

theorem did_of_inv (w' : World) (hinv : contract.inv w'.store.committed w'.rest) (ws' : Writes)
    (hmem : (n, ws') ∈ w'.store.committed.history) : contract.does r ws' :=
  hinv.2 (n, ws') hmem

theorem yields_ask (x : Ask) (hold : contract.Holding n r ws w) :
    TxYields backend contract n r (TxAct.ask x : Act x.Answer) (fun _ w' => contract.Rely n w w' ∧ contract.Holding n r ws w') w := by
  apply TxYields.mono (TxYields.ask (fun _ => True) hold fun _ _ _ _ _ h _ => ⟨h, trivial⟩)
  intro a w' h
  exact ⟨h.1, h.1.holding hold⟩

theorem yields_commit (hold : contract.Holding n r ws w) (hshape : Shape ws) :
    TxYields backend contract n r (TxAct.commit : Act Unit) (fun _ _ => True) w := by
  apply TxYields.mono (TxYields.commit (fun _ => True) hold hshape fun w₁ _ _ _ hinv hfresh _ =>
    ⟨inv_transact (r := r) hinv hshape hfresh, trivial⟩)
  intro _ _ _
  trivial

theorem yields_loadOwned (merchantId invoice : UUID) (hold : contract.Holding n r [] w) :
    TxYields backend contract n r (loadOwned merchantId invoice) (fun _ w' => contract.Holding n r [] w') w := by
  apply TxYields.bind (TxYields.query hold)
  rintro found w₁ ⟨hrely, -⟩
  have hold₁ := hrely.holding hold
  cases found with
  | none => exact TxYields.raise
  | some row =>
    apply TxYields.bind TxYields.require
    rintro - w₂ ⟨rfl, -⟩
    exact TxYields.ret hold₁

theorem yields_create (merchantId : UUID) (dueAt : Time) (hold : contract.Holding n r [] w) :
    TxYields backend contract n r (create merchantId dueAt) (fun _ _ => True) w := by
  apply TxYields.bind (yields_ask Ask.uuid4 hold)
  rintro invoice w₁ ⟨-, hold₁⟩
  apply TxYields.bind (TxYields.flush hold₁)
  rintro - w₂ ⟨hold₂, -⟩
  apply TxYields.bind (TxYields.flush hold₂)
  rintro - w₃ ⟨hold₃, -⟩
  apply TxYields.bind (yields_commit hold₃ (.create invoice merchantId dueAt))
  rintro - w₄ -
  exact TxYields.ret trivial

theorem yields_finalize (merchantId invoice : UUID) (hold : contract.Holding n r [] w) :
    TxYields backend contract n r (finalize merchantId invoice) (fun _ _ => True) w := by
  apply TxYields.bind (yields_loadOwned merchantId invoice hold)
  intro row w₁ hold₁
  apply TxYields.bind TxYields.require
  rintro - w₁ ⟨rfl, -⟩
  apply TxYields.bind (yields_ask (Ask.createPaylink _) hold₁)
  rintro answer w₂ ⟨-, hold₂⟩
  cases answer with
  | error reason => exact TxYields.raise
  | ok plId =>
    apply TxYields.bind TxYields.require
    rintro - w₂ ⟨rfl, -⟩
    apply TxYields.bind (TxYields.flush hold₂)
    rintro - w₃ ⟨hold₃, -⟩
    apply TxYields.bind (yields_commit hold₃ (.finalize invoice plId))
    rintro - w₄ -
    exact TxYields.ret trivial

theorem yields_void (merchantId invoice : UUID) (hold : contract.Holding n r [] w) :
    TxYields backend contract n r (void merchantId invoice) (fun _ _ => True) w := by
  apply TxYields.bind (yields_loadOwned merchantId invoice hold)
  intro row w₁ hold₁
  apply TxYields.bind TxYields.require
  rintro - w₁ ⟨rfl, -⟩
  apply TxYields.bind TxYields.require
  rintro - w₁ ⟨rfl, -⟩
  apply TxYields.bind (TxYields.flush hold₁)
  rintro - w₂ ⟨hold₂, -⟩
  apply TxYields.bind (yields_commit hold₂ (.void invoice))
  rintro - w₃ -
  exact TxYields.ret trivial

theorem yields_flushOverdue (rows : List (UUID × InvoiceRow)) {invoices : List UUID}
    (hold : contract.Holding n r (invoices.flatMap overdueWrites) w) : TxYields backend contract n r (flushOverdue rows)
      (fun _ w' => ∃ invoices : List UUID, contract.Holding n r (invoices.flatMap overdueWrites) w') w := by
  induction rows generalizing invoices w with
  | nil => exact TxYields.ret ⟨invoices, hold⟩
  | cons x rows ih =>
    apply TxYields.bind (TxYields.flush hold)
    rintro - w₁ ⟨hold₁, -⟩
    have hmore : invoices.flatMap overdueWrites ++ overdueWrites x.1 = (invoices ++ [x.1]).flatMap overdueWrites := by
      simp
    rw [hmore] at hold₁
    exact ih hold₁

theorem yields_sweepOverdue (hold : contract.Holding n r [] w) :
    TxYields backend contract n r sweepOverdue (fun _ _ => True) w := by
  apply TxYields.bind (yields_ask Ask.now hold)
  rintro now w₁ ⟨-, hold₁⟩
  apply TxYields.bind (TxYields.query hold₁)
  rintro rows w₂ ⟨hrely, -⟩
  have hold₂ : contract.Holding n r (([] : List UUID).flatMap overdueWrites) w₂ := hrely.holding hold₁
  apply TxYields.bind (yields_flushOverdue rows hold₂)
  rintro - w₃ ⟨invoices, hold₃⟩
  cases rows with
  | nil => exact TxYields.ret trivial
  | cons x rows =>
    apply TxYields.bind (yields_commit hold₃ (.sweep invoices))
    rintro - w₄ -
    exact TxYields.ret trivial

def Settles (d : Tables) (plId : String) (d' : Tables) : Prop :=
  ∀ invoice row, Tables.getInvoice d invoice = some row → row.plId = some plId →
    Tables.status? d' invoice = some .paid ∨ Tables.status? d' invoice = some .voided

theorem closed_of_not_payable {d : Tables} (hlinked : Linked d) {invoice : UUID} {row : InvoiceRow} {plId : String}
    (hrow : Tables.getInvoice d invoice = some row) (hplId : row.plId = some plId) (hpayable : ¬ row.status.Payable) :
    Tables.status? d invoice = some .paid ∨ Tables.status? d invoice = some .voided := by
  rw [status?_of_getInvoice hrow]
  cases hstatus : row.status with
  | draft =>
    rw [hlinked invoice row hrow hstatus] at hplId
    cases hplId
  | opened | overdue => simp [hstatus, Status.Payable] at hpayable
  | paid => exact .inl rfl
  | voided => exact .inr rfl

theorem settles_of_booked {d d' : Tables} {plId : String} (hlinked : Linked d) (hevolves : contract.Evolves d d')
    (hlinked' : Linked d') (hbooked : Booked d' plId) : Settles d plId d' := by
  intro invoice row hrow hplId
  obtain ⟨row', hrow', hplId'⟩ := plId_stays hevolves hlinked ⟨row, hrow, hplId⟩
  exact closed_of_not_payable hlinked' hrow' hplId' (hbooked _ (Db.mem_of_find? hrow') hplId')

theorem yields_markPaidByPlid (plId : String) {d : Tables} (hlinked : Linked d)
    (hevolves : contract.Evolves d w.store.committed) (hold : contract.Holding n r [] w) :
    TxYields backend contract n r (markPaidByPlid plId) (fun _ w' => Settles d plId w'.store.committed) w := by
  apply TxYields.bind (TxYields.query hold)
  rintro (found : List (UUID × InvoiceRow)) w₁ ⟨hrely, -, hinv, hfound⟩
  change found = Tables.getByPlid w₁.store.committed plId at hfound
  have hold₁ := hrely.holding hold
  have hevolves₁ := hevolves.trans hrely.grows
  -- whoever had the PayLink is among the rows found
  have hamong : ∀ invoice row, Tables.getInvoice d invoice = some row → row.plId = some plId →
      ∃ row', Tables.getInvoice w₁.store.committed invoice = some row' ∧ row'.plId = some plId ∧ (invoice, row') ∈ found := by
    intro invoice row hrow hplId
    obtain ⟨row', hrow', hplId'⟩ := plId_stays hevolves₁ hlinked ⟨row, hrow, hplId⟩
    refine ⟨row', hrow', hplId', ?_⟩
    rw [hfound]
    exact List.mem_filter.mpr ⟨Db.mem_of_find? hrow', by simp [hplId']⟩
  match found, hamong with
  | [], hamong =>
    refine TxYields.ret fun invoice row hrow hplId => ?_
    obtain ⟨row', -, -, hmem⟩ := hamong invoice row hrow hplId
    cases hmem
  | [(target, targetRow)], hamong =>
    dsimp only
    split
    · apply TxYields.bind (yields_ask Ask.now hold₁)
      rintro now w₂ ⟨hrely₂, hold₂⟩
      apply TxYields.bind (TxYields.flush hold₂)
      rintro - w₃ ⟨hold₃, hgrows₃⟩
      have hevolves₃ := hevolves₁.trans (hrely₂.grows.trans hgrows₃)
      have hcommit : TxYields backend contract n r (TxAct.commit : Act Unit)
          (fun _ w' => contract.Holding n r [] w' ∧ Settles d plId w'.store.committed) w₃ := by
        refine TxYields.commit (Settles d plId) hold₃ (.pay target plId now) fun w₄ _ hrely₄ _ hinv₄ hfresh _ => ?_
        refine ⟨inv_transact (r := r) hinv₄ (.pay target plId now) hfresh, fun invoice row hrow hplId => .inl ?_⟩
        obtain ⟨_, -, -, hmem⟩ := hamong invoice row hrow hplId
        obtain ⟨rfl, -⟩ := Prod.mk.inj (List.mem_singleton.mp hmem)
        obtain ⟨row', hrow', -⟩ := plId_stays (hevolves₃.trans hrely₄.grows) hlinked ⟨row, hrow, hplId⟩
        refine Option.map_eq_some_iff.mpr ⟨row'.paid now, ?_, rfl⟩
        change Tables.getInvoice (applyAll _ w₄.store.committed) invoice = _
        rw [List.nil_append, getInvoice_update, if_pos rfl, hrow']
        rfl
      apply TxYields.bind hcommit
      rintro - w₅ ⟨-, hsettles⟩
      exact TxYields.ret hsettles
    · next hpayable =>
      refine TxYields.ret fun invoice row hrow hplId => ?_
      obtain ⟨row', hrow', hplId', hmem⟩ := hamong invoice row hrow hplId
      obtain ⟨rfl, rfl⟩ := Prod.mk.inj (List.mem_singleton.mp hmem)
      exact closed_of_not_payable hinv.1 hrow' hplId' hpayable
  | _ :: _ :: _, _ =>
    intro v hv
    cases hv

def Acknowledges (d : Tables) (name : String) (payload : Payload) (d' : Tables) : Prop :=
  name = chainPaylinkVerified → ∀ plId ∈ payload.payLink?, Settles d plId d'

theorem yields_consume (name : String) (payload : Payload) {d : Tables} (hlinked : Linked d)
    (hevolves : contract.Evolves d w.store.committed) (hold : contract.Holding n r [] w) :
    TxYields backend contract n r (consume name payload) (fun _ w' => Acknowledges d name payload w'.store.committed) w := by
  unfold consume
  split
  · cases hplId : payload.payLink? with
    | none =>
      refine TxYields.ret fun _ plId hmem => ?_
      rw [hplId] at hmem
      cases hmem
    | some plId =>
      apply TxYields.bind (yields_markPaidByPlid plId hlinked hevolves hold)
      intro _ w₁ hsettles
      refine TxYields.ret fun _ plId' hmem => ?_
      rw [hplId] at hmem
      cases hmem
      exact hsettles
  · next hname => exact TxYields.ret fun h => absurd h hname

theorem yields_delete (key : String) (w : World) : TxYields backend contract n r (Act.delete key) (fun _ _ => True) w := by
  apply TxYields.bind (TxYields.askAt (fun _ _ => True) (fun w' _ => did_of_inv w')
    fun d t c a t' hinv _ _ => ⟨hinv, trivial⟩)
  rintro (m | u) w₁ -
  · intro v hv
    cases hv
  · exact TxYields.ret trivial

theorem yields_setNX (name : String) (payload : Payload) (key : String) :
    TxYields backend contract n (.deliver name payload) (Act.setNX key) (fun reserved w' =>
      contract.Rely n w w' ∧ Linked w'.store.committed ∧ (reserved = false → name = chainPaylinkVerified →
        ∀ plId ∈ payload.payLink?, Booked w'.store.committed plId)) w := by
  have hask : TxYields backend contract n (.deliver name payload) (TxAct.ask (Ask.setNX key) : Act _) (fun a w' =>
      contract.Rely n w w' ∧ Linked w'.store.committed ∧ (a = Except.ok false → name = chainPaylinkVerified →
        ∀ plId ∈ payload.payLink?, Booked w'.store.committed plId)) w := by
    refine TxYields.askAt (x := Ask.setNX key) (B := Ask.Answer) (fun (a : Except String Bool) d => Linked d ∧ (a = .ok false → name = chainPaylinkVerified →
      ∀ plId ∈ payload.payLink?, Booked d plId)) (fun w' _ => did_of_inv w') ?_
    intro d markers c a markers' hinv hhonest hask
    refine ⟨hinv, hinv.1, ?_⟩
    rintro rfl
    change askWorld markers (.setNX key) c = some (.ok false, markers') at hask
    cases c with
    | redis =>
      have hmem : key ∈ markers := by
        have hfalse := Except.ok.inj (Prod.mk.inj (Option.some.inj hask)).1
        simpa using hfalse
      exact hhonest hmem
    | uuid | time | paylink => cases hask
    | failed | lost => cases (Prod.mk.inj (Option.some.inj hask)).1
  apply TxYields.bind hask
  rintro (m | reserved) w₁ ⟨hrely, hlinked, hbooked⟩
  · intro v hv
    cases hv
  · exact TxYields.ret ⟨hrely, hlinked, fun h => hbooked (congrArg Except.ok h)⟩

theorem yields_deliver (cfg : Settings) (name : String) (payload : Payload) (hlinked : Linked w.store.committed)
    (hold : contract.Holding n (.deliver name payload) [] w) :
    TxYields backend contract n (.deliver name payload) (deliver cfg name payload)
      (fun _ w' => Acknowledges w.store.committed name payload w'.store.committed) w := by
  have honce : TxYields backend contract n (.deliver name payload)
      (runOnce cfg name (cfg.fingerprint payload) (consume name payload))
      (fun _ w' => Acknowledges w.store.committed name payload w'.store.committed) w := by
    apply TxYields.bind (yields_setNX name payload _)
    rintro reserved w₁ ⟨hrely, hlinked₁, hbooked⟩
    cases reserved with
    | true =>
      apply TxYields.bind (TxYields.onError (yields_consume name payload hlinked hrely.grows (hrely.holding hold))
        (yields_delete _))
      intro _ w₂ hack
      exact TxYields.ret hack
    | false =>
      refine TxYields.ret fun hname plId hmem => ?_
      exact settles_of_booked hlinked hrely.grows hlinked₁ (hbooked rfl hname plId hmem)
  apply TxYields.bind honce
  intro _ w₁ hack
  exact TxYields.ret hack

theorem yields_handle (cfg : Settings) (hlinked : Linked w.store.committed) (hold : contract.Holding n r [] w) :
    TxYields backend contract n r (handle cfg r) (fun _ _ => True) w := by
  cases r with
  | create merchantId dueAt =>
    exact TxYields.bind (yields_create merchantId dueAt hold) fun _ _ _ => TxYields.ret trivial
  | finalize merchantId invoice =>
    exact TxYields.bind (yields_finalize merchantId invoice hold) fun _ _ _ => TxYields.ret trivial
  | void merchantId invoice =>
    exact TxYields.bind (yields_void merchantId invoice hold) fun _ _ _ => TxYields.ret trivial
  | deliver name payload =>
    exact TxYields.bind (yields_deliver cfg name payload hlinked hold) fun _ _ _ => TxYields.ret trivial
  | sweepOverdue => exact TxYields.bind (yields_sweepOverdue hold) fun _ _ _ => TxYields.ret trivial
  | dropMarker key => exact TxYields.bind (yields_ask (Ask.drop key) hold) fun _ _ _ => TxYields.ret trivial
end

theorem keeps (cfg : Settings) : contract.Keeps backend (handle cfg) (fun _ _ _ _ => True) :=
  ⟨fun _ _ _ _ _ _ _ => trivial, fun _ _ _ hinv hold => yields_handle cfg hinv.1 hold⟩

theorem inv_empty : contract.inv {} [] := by
  constructor
  · intro invoice row hrow
    cases hrow
  · intro x hx
    cases hx

/-- **Paid invoices stay paid and every settlement is booked once**, in every run whose commits write only events that
    pass their check at the commit, and whose handlers find no marker while an invoice of their PayLink waits. -/
theorem paid_invoices_stay_paid (cfg : Settings) (moves : List (Move Request (TxChoice Reply) Nat))
    (met : ∀ e ∈ trace (system cfg).step { shared := { rest := [] } } moves,
      CommitsMeet Fresh e.1 e.2 ∧ AsksMeet Honest e.1 e.2) :
    let reached := (system cfg).exec { rest := [] } moves
    (∀ before after, moves = before ++ after → ∀ invoice,
      Tables.status? ((system cfg).exec { rest := [] } before).shared.store.committed invoice = some .paid →
        Tables.status? reached.shared.store.committed invoice = some .paid) ∧
    (reached.shared.store.committed.outbox.Pairwise fun e e' => ∀ invoice, e.Pays invoice → ¬ e'.Reopens invoice) ∧
    ∀ before after payload plId, moves = before ++ .start (.deliver chainPaylinkVerified payload) :: after →
      payload.payLink? = some plId →
      let earlier := (system cfg).exec { rest := [] } before
      reached.returned? earlier.procs.length = some (.deliver chainPaylinkVerified payload, .ok .acknowledged) →
      ∀ invoice row, Tables.getInvoice earlier.shared.store.committed invoice = some row → row.plId = some plId →
        row.status.Payable → Tables.status? reached.shared.store.committed invoice ≠ some .voided →
          Tables.status? reached.shared.store.committed invoice = some .paid := by
  intro reached
  have met : ∀ e ∈ trace (system cfg).step { shared := { rest := [] } } moves, Meets contract.contract e.1 e.2 :=
    fun e he => TxContract.meets_of_meet (met e he).1 (met e he).2
  have hsound : ∀ before after, moves = before ++ after →
      contract.SoundTx backend (handle cfg) (fun _ _ _ _ => True) ((system cfg).exec { rest := [] } before) := by
    rintro before after rfl
    rw [trace_append] at met
    exact (keeps cfg).sound Db.keyed_empty rfl inv_empty before fun e he => met e (List.mem_append_left _ he)
  refine ⟨?_, ?_, ?_⟩
  · intro before after hmoves invoice hpaid
    have hearlier := hsound before after hmoves
    have hevolves : contract.Evolves ((system cfg).exec { rest := [] } before).shared.store.committed
        reached.shared.store.committed := by
      subst hmoves
      rw [trace_append] at met
      have hlater : contract.Evolves ((system cfg).exec { rest := [] } before).shared.store.committed
          (after.foldl (system cfg).step ((system cfg).exec { rest := [] } before)).shared.store.committed :=
        (keeps cfg).evolves hearlier after fun e he => met e (List.mem_append_right _ he)
      rwa [← System.exec_append] at hlater
    exact closed_stays hevolves (.inl rfl) hpaid
  · have hevolves : contract.Evolves {} reached.shared.store.committed :=
      (keeps cfg).evolves (hsound [] moves rfl) moves met
    exact (bookedOnce_evolves hevolves ⟨List.Pairwise.nil, fun e he => by cases he⟩).order
  · intro before after payload plId hmoves hplId earlier hreturned invoice row hrow hrowPlId _ hvoided
    have hearlier := hsound before _ hmoves
    have hreached : reached = after.foldl (system cfg).step
        ((system cfg).step earlier (.start (.deliver chainPaylinkVerified payload))) := by
      subst hmoves
      exact (system cfg).exec_append _ before _
    have hmet : ∀ e ∈ trace (system cfg).step earlier (.start (.deliver chainPaylinkVerified payload) :: after),
        Meets contract.contract e.1 e.2 := by
      subst hmoves
      rw [trace_append] at met
      exact fun e he => met e (List.mem_append_right _ he)
    have hlinked : Linked earlier.shared.store.committed := hearlier.inv.2.1
    have hack : Acknowledges earlier.shared.store.committed chainPaylinkVerified payload
        reached.shared.store.committed := by
      rw [hreached] at hreturned ⊢
      refine (keeps cfg).follow hearlier (.deliver chainPaylinkVerified payload)
        (fun _ w => Acknowledges earlier.shared.store.committed chainPaylinkVerified payload w.store.committed)
        ?_ ?_ after hmet hreturned
      · intro _ w w' hack hrely hname plId hmem invoice row hrow hrowPlId
        exact (hack hname plId hmem invoice row hrow hrowPlId).imp (closed_stays hrely.grows (.inl rfl))
          (closed_stays hrely.grows (.inr rfl))
      · intro hold
        exact TxYields.bind (yields_deliver cfg chainPaylinkVerified payload hlinked hold) fun _ _ h => TxYields.ret h
    exact (hack rfl plId hplId invoice row hrow hrowPlId).resolve_right hvoided

namespace Sample
def payload : Payload := { entityId := some "0xabc", plId := none, other := "" }

def cfg : Settings where
  serviceName := "invoice-subscription"
  fingerprint _ := "13b5f5e91352d3d1dbe4e40b5382dd6560e5c21f5bd194c052eeda9b0ca866ed"

def verified : Request := .deliver chainPaylinkVerified payload

def finalized : List (Move Request (TxChoice Reply) Nat) :=
  [.start (.create 1 100), .run 0 (.env (.uuid 7)), .run 0 .ok, .run 0 .ok, .run 0 .ok,
    .start (.finalize 1 7), .run 1 .ok, .run 1 (.env (.paylink (.ok "0xabc"))), .run 1 .ok, .run 1 .ok]

def handled : List (Move Request (TxChoice Reply) Nat) :=
  [.run 2 (.env .redis), .run 2 .ok, .run 2 (.env (.time 50)), .run 2 .ok, .run 2 .ok,
    .start verified, .run 3 (.env .redis)]

def booked : List (Move Request (TxChoice Reply) Nat) :=
  finalized ++ [.start verified, .start (.void 1 7), .run 3 .ok, .run 2 (.env .redis), .run 2 .ok,
    .run 2 (.env (.time 50)), .run 2 .ok, .run 2 .ok]

def overwritten : List (Move Request (TxChoice Reply) Nat) := booked ++ [.run 3 .ok, .run 3 .ok]

def crashed : List (Move Request (TxChoice Reply) Nat) :=
  finalized ++ [.start verified, .run 2 (.env .redis), .drift 2]

def redelivered : List (Move Request (TxChoice Reply) Nat) := crashed ++ [.start verified, .run 3 (.env .redis)]
end Sample

/-- An invoice is finalised, paid, and its event comes again. -/
theorem paid_invoices_stay_paid_handled :
    let reached := (system Sample.cfg).exec { rest := [] } (Sample.finalized ++ .start Sample.verified :: Sample.handled)
    (reached.shared.store.committed.outbox.Pairwise fun e e' => ∀ invoice, e.Pays invoice → ¬ e'.Reopens invoice) ∧
      Tables.status? reached.shared.store.committed 7 = some .paid := by
  have h := paid_invoices_stay_paid Sample.cfg (Sample.finalized ++ .start Sample.verified :: Sample.handled)
    (by decide +kernel)
  refine ⟨h.2.1, h.2.2 Sample.finalized Sample.handled Sample.payload "0xabc" rfl rfl (by decide +kernel) 7
    { merchantId := 1, plId := some "0xabc", status := .opened, dueAt := 100 } (by decide +kernel) rfl (.inl rfl)
    (by decide +kernel)⟩

/-- A PAID invoice becomes VOID, with a void booked after its payment; and an acknowledged event leaves its invoice OPEN. -/
theorem paid_invoice_voided_and_event_lost :
    (Tables.status? ((system Sample.cfg).exec { rest := [] } Sample.booked).shared.store.committed 7 = some .paid ∧
      Tables.status? ((system Sample.cfg).exec { rest := [] } Sample.overwritten).shared.store.committed 7 = some .voided ∧
      ((system Sample.cfg).exec { rest := [] } Sample.overwritten).shared.store.committed.outbox =
        [.created 7, .finalized 7 "0xabc", .paid 7 "0xabc", .voided 7]) ∧
    ((system Sample.cfg).exec { rest := [] } Sample.redelivered).returned? 3 = some (Sample.verified, .ok .acknowledged) ∧
    Sample.payload.payLink? = some "0xabc" ∧
    Tables.getInvoice ((system Sample.cfg).exec { rest := [] } Sample.crashed).shared.store.committed 7 =
      some { merchantId := 1, plId := some "0xabc", status := .opened, dueAt := 100 } ∧
    Tables.status? ((system Sample.cfg).exec { rest := [] } Sample.redelivered).shared.store.committed 7 = some .opened := by
  refine ⟨⟨?_, ?_, ?_⟩, ?_, ?_, ?_, ?_⟩ <;> decide +kernel

end LinkMint.Invoices
