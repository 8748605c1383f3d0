import TabFtp.CertStoreExclusion

/-!
# Decisions about session resumption

`SetSessionResumptionSupport` records whether the data connections of an FTP
server can be required to resume the TLS session.  Both maps of the store are
filled by `emplace`, which keeps an existing value, and the persistent map is
looked at first.  A decision takes effect if no other value is recorded where
it would be looked up.
-/

namespace TabFtp

/-- The document that `CXmlFile::Load` takes from the file. -/
def StoredFile.root : StoredFile → Option CertDocument
  | .empty _ => some ⟨[], [], []⟩
  | .broken _ => none
  | .valid root _ => some root
  | .backup root _ (some _) => some root
  | .backup _ _ none => none

/-- The entries that `LoadTrustedCerts` takes from a document. -/
def CertDocument.support (root : CertDocument) : List (HostPort × Bool) :=
  (root.resumption.filter CertStore.acceptResumption).foldl
    (fun entries entry => emplace entries (entry.host, entry.port) entry.secure)
    []

def StoredFile.support (disk : StoredFile) : List (HostPort × Bool) :=
  match disk.root with
  | none => []
  | some root => root.support

/-! ## The maps -/

section Maps

variable {entries : List (HostPort × Bool)} {key other : HostPort}
  {secure : Bool}

theorem any_key_iff :
    entries.any (·.1 == key) = true ↔ entries.lookup key ≠ none := by
  induction entries with
  | nil => simp
  | cons entry entries ih =>
      rw [List.any_cons, List.lookup_cons, Bool.or_eq_true, ih]
      by_cases hkey : entry.1 = key
      · simp [hkey]
      · have hne : (key == entry.1) = false := beq_false_of_ne (Ne.symm hkey)
        simp [hkey, hne]

theorem emplace_of_none (hnone : entries.lookup key = none) :
    emplace entries key secure = entries ++ [(key, secure)] := by
  have hany : ¬ entries.any (·.1 == key) = true := by
    rw [any_key_iff, hnone]
    simp
  exact if_neg hany

theorem emplace_of_some {old : Bool} (hsome : entries.lookup key = some old) :
    emplace entries key secure = entries := by
  have hany : entries.any (·.1 == key) = true := by
    rw [any_key_iff, hsome]
    simp
  exact if_pos hany

theorem lookup_emplace_self (hnone : entries.lookup key = none) :
    (emplace entries key secure).lookup key = some secure := by
  rw [emplace_of_none hnone, List.lookup_append, hnone]
  simp

theorem lookup_emplace_of_ne (hne : other ≠ key) :
    (emplace entries key secure).lookup other = entries.lookup other := by
  cases hlookup : entries.lookup key with
  | some old => rw [emplace_of_some hlookup]
  | none =>
      have hbeq : (other == key) = false := beq_false_of_ne hne
      rw [emplace_of_none hlookup, List.lookup_append, List.lookup_cons, hbeq]
      simp

theorem lookup_filter_of_ne (hne : other ≠ key) :
    (entries.filter (·.1 != key)).lookup other = entries.lookup other := by
  induction entries with
  | nil => rfl
  | cons entry entries ih =>
      by_cases hkey : entry.1 = key
      · have hbeq : (other == entry.1) = false := by
          rw [hkey]
          exact beq_false_of_ne hne
        rw [List.lookup_cons, hbeq, ← ih]
        simp [hkey]
      · have hkept : (entry :: entries).filter (·.1 != key) =
            entry :: entries.filter (·.1 != key) := by
          simp [hkey]
        rw [hkept, List.lookup_cons, List.lookup_cons, ih]

end Maps

/-! ## The entries of the file -/

theorem lookup_support_ne_none {entry : XmlResumption}
    {accepted : List XmlResumption} {entries : List (HostPort × Bool)}
    (hentry : entry ∈ accepted ∨
      entries.lookup (entry.host, entry.port) ≠ none) :
    (accepted.foldl
      (fun entries entry =>
        emplace entries (entry.host, entry.port) entry.secure)
      entries).lookup (entry.host, entry.port) ≠ none := by
  induction accepted generalizing entries with
  | nil => exact hentry.resolve_left List.not_mem_nil
  | cons first accepted ih =>
      refine ih ?_
      change _ ∨ (emplace entries (first.host, first.port)
        first.secure).lookup (entry.host, entry.port) ≠ none
      by_cases hkey : (entry.host, entry.port) = (first.host, first.port)
      · right
        rw [hkey]
        cases hlookup : entries.lookup (first.host, first.port) with
        | none =>
            rw [lookup_emplace_self hlookup]
            exact Option.some_ne_none _
        | some old =>
            rw [emplace_of_some hlookup, hlookup]
            exact Option.some_ne_none _
      · rcases hentry with hmem | hlookup
        · rcases List.mem_cons.mp hmem with rfl | hmem
          · exact absurd rfl hkey
          · exact Or.inl hmem
        · right
          rw [lookup_emplace_of_ne hkey]
          exact hlookup

theorem setResumptionEntry_of_not_mem {host : HostName} {port : ℕ}
    {secure : Bool} {entries : List XmlResumption}
    (hnot : ∀ entry ∈ entries, ¬ (entry.host = host ∧ entry.port = port)) :
    CertStore.setResumptionEntry host port secure entries =
      entries ++ [⟨host, port, secure⟩] := by
  induction entries with
  | nil => rfl
  | cons entry entries ih =>
      have hfirst := hnot entry List.mem_cons_self
      have hrest := ih fun other hother =>
        hnot other (List.mem_cons_of_mem entry hother)
      rw [CertStore.setResumptionEntry, if_neg hfirst, hrest, List.cons_append]

/-- `LoadTrustedCerts` takes out no entry with this host and port. -/
def Storable (host : HostName) (port : ℕ) : Prop :=
  host ≠ [] ∧ 0 < port ∧ port < 65536

theorem acceptResumption_iff {entry : XmlResumption} :
    CertStore.acceptResumption entry = true ↔
      Storable entry.host entry.port := by
  unfold CertStore.acceptResumption Storable
  rw [Bool.not_eq_true', Bool.or_eq_false_iff, Bool.or_eq_false_iff,
    List.isEmpty_eq_false_iff, decide_eq_false_iff_not,
    decide_eq_false_iff_not, and_assoc]
  refine and_congr_right fun _ => ?_
  omega

theorem support_setSessionResumptionSupportInXml {root : CertDocument}
    {host : HostName} {port : ℕ} {secure : Bool}
    (hstorable : Storable host port)
    (hnone : root.support.lookup (host, port) = none) :
    (CertStore.setSessionResumptionSupportInXml root host port
      secure).support = emplace root.support (host, port) secure := by
  have hnot : ∀ entry ∈ root.resumption,
      ¬ (entry.host = host ∧ entry.port = port) := by
    intro entry hentry hsame
    have haccept : CertStore.acceptResumption entry = true := by
      rw [acceptResumption_iff, hsame.1, hsame.2]
      exact hstorable
    have hmem : entry ∈ root.resumption.filter CertStore.acceptResumption :=
      List.mem_filter.mpr ⟨hentry, haccept⟩
    have hsome : root.support.lookup (entry.host, entry.port) ≠ none :=
      lookup_support_ne_none (Or.inl hmem)
    rw [hsame.1, hsame.2] at hsome
    exact hsome hnone
  have haccept : CertStore.acceptResumption ⟨host, port, secure⟩ = true :=
    acceptResumption_iff.mpr hstorable
  unfold CertDocument.support CertStore.setSessionResumptionSupportInXml
  rw [setResumptionEntry_of_not_mem hnot, List.filter_append,
    List.filter_cons_of_pos haccept, List.filter_nil, List.foldl_append]
  rfl

namespace CertStore

variable {isDnsName : HostName → Bool} {store : CertStore}
  {context : LoadContext}

/-! ## What a question finds -/

def upcoming (store : CertStore) : List (HostPort × Bool) :=
  if store.modified then
    match store.disk.root with
    | none => store.persistent.resumptionSupport
    | some root => root.support
  else store.persistent.resumptionSupport

def support (store : CertStore) (key : HostPort) : Option Bool :=
  (store.upcoming.lookup key).or (store.session.resumptionSupport.lookup key)

theorem openFile_element (store : CertStore) :
    store.openFile.file.element = store.disk.root := by
  cases hdisk : store.disk with
  | empty time => simp [openFile, hdisk, StoredFile.root]
  | broken time => simp [openFile, hdisk, StoredFile.root]
  | valid root time => simp [openFile, hdisk, StoredFile.root]
  | backup root time restoredAt =>
      cases restoredAt <;> simp [openFile, hdisk, StoredFile.root]

theorem openFile_disk_root (store : CertStore) :
    store.openFile.disk.root = store.disk.root := by
  cases hdisk : store.disk with
  | empty time => simp [openFile, hdisk]
  | broken time => simp [openFile, hdisk]
  | valid root time => simp [openFile, hdisk]
  | backup root time restoredAt =>
      cases restoredAt <;> simp [openFile, hdisk, StoredFile.root]

theorem weed_support (isDnsName : HostName → Bool) (now : ℤ)
    (root : CertDocument) : (weed isDnsName now root).support =
      root.support := by
  simp [weed, CertDocument.support, List.filter_filter]

theorem readEntries_resumptionSupport (isDnsName : HostName → Bool) (now : ℤ)
    (root : CertDocument) :
    (readEntries isDnsName now root).resumptionSupport = root.support := rfl

theorem loadTrustedCerts_resumptionSupport :
    (store.loadTrustedCerts isDnsName context).persistent.resumptionSupport =
      store.upcoming := by
  unfold loadTrustedCerts upcoming
  cases hmodified : store.modified with
  | false => rfl
  | true =>
      simp only [Bool.not_true, Bool.false_eq_true, if_false, if_true,
        openFile_element]
      cases hroot : store.disk.root with
      | none => rw [openFile_persistent]
      | some root =>
          simp only
          split_ifs
          · exact readEntries_resumptionSupport isDnsName context.now root
          · rw [save_persistent]
            exact readEntries_resumptionSupport isDnsName context.now root

theorem getSessionResumptionSupport_eq (host : HostName) (port : ℕ) :
    (store.getSessionResumptionSupport isDnsName context host port).1 =
      store.support (host, port) := by
  simp only [getSessionResumptionSupport, support,
    loadTrustedCerts_resumptionSupport, loadTrustedCerts_session]

def Rereads (isDnsName : HostName → Bool) (context : LoadContext)
    (store : CertStore) : Prop :=
  (store.loadTrustedCerts isDnsName context).upcoming = store.upcoming

instance : Decidable (store.Rereads isDnsName context) :=
  inferInstanceAs (Decidable (_ = _))

theorem Rereads.support (hrereads : store.Rereads isDnsName context)
    (key : HostPort) :
    (store.loadTrustedCerts isDnsName context).support key =
      store.support key := by
  unfold CertStore.support
  rw [hrereads, loadTrustedCerts_session]

theorem Rereads.upcoming (hrereads : store.Rereads isDnsName context) :
    (store.loadTrustedCerts isDnsName context).upcoming =
      (store.loadTrustedCerts isDnsName
        context).persistent.resumptionSupport := by
  rw [hrereads, loadTrustedCerts_resumptionSupport]

theorem upcoming_of_settled (hsettled : store.settled = true) :
    store.upcoming = store.persistent.resumptionSupport := by
  unfold settled at hsettled
  unfold CertStore.upcoming
  rw [openFile_element] at hsettled
  cases hmodified : store.modified with
  | false => rfl
  | true =>
      rw [hmodified, Bool.not_true, Bool.false_or,
        Option.isNone_iff_eq_none] at hsettled
      simp [hsettled]

theorem upcoming_congr {other : CertStore} (hfile : other.file = store.file)
    (hdisk : other.disk = store.disk)
    (hsame : other.persistent.resumptionSupport =
      store.persistent.resumptionSupport) :
    other.upcoming = store.upcoming := by
  unfold CertStore.upcoming modified
  rw [hfile, hdisk, hsame]

end CertStore

open CertStore

/-! ## The condition on the decisions -/

/-- A decision takes effect.  No other value is recorded where a decision for
the session would be looked up, nor persistently where a permanent decision
would be kept, and a permanent decision that is recorded is not lost when the
file is read again. -/
def DecisionTakes (isDnsName : HostName → Bool) (store : CertStore) :
    CertStoreInput → Prop
  | .setSessionResumptionSupport host port secure false _ =>
      store.support (host, port) ≠ some !secure
  | .setSessionResumptionSupport host port secure true circumstances =>
      let loaded := store.loadTwice isDnsName circumstances
      store.Rereads isDnsName circumstances.load ∧
        (store.loadTrustedCerts isDnsName circumstances.load).Rereads
          isDnsName circumstances.again ∧
        loaded.persistent.resumptionSupport.lookup (host, port) ≠
          some !secure ∧
        (loaded.support (host, port) ≠ some secure →
          DecisionKept circumstances loaded false)
  | .question context => store.Rereads isDnsName context
  | .setTrusted .. => False
  | .setInsecure .. => False
  | .fileChanges _ => False
  | .restart => False

/-- What is saved is saved, and a permanent decision is not taken for known
because of one for the session. -/
def DecisionSaved (isDnsName : HostName → Bool) (store : CertStore) :
    CertStoreInput → Prop
  | .setSessionResumptionSupport _ _ _ false _ => True
  | .setSessionResumptionSupport host port secure true circumstances =>
      let loaded := store.loadTwice isDnsName circumstances
      (∃ time, circumstances.load.weeding = .saved time) ∧
        (∃ time, circumstances.again.weeding = .saved time) ∧
        (loaded.persistent.resumptionSupport.lookup (host, port) = none →
          Storable host port ∧
            loaded.session.resumptionSupport.lookup (host, port) ≠
              some secure ∧
            circumstances.allowedToSave = true ∧
            loaded.file.element.isSome = true ∧
            ∃ time, circumstances.saving = .saved time)
  | .question context => ∃ time, context.weeding = .saved time
  | _ => True

/-- The value of the last call for a host and port, or of the last permanent
one. -/
def lastDecision (permanentOnly : Bool) (inputs : List CertStoreInput)
    (key : HostPort) : Option Bool :=
  inputs.foldl
    (fun before input =>
      match input with
      | .setSessionResumptionSupport host port secure permanent _ =>
          if (host, port) = key ∧ (permanentOnly = true → permanent = true) then
            some secure
          else before
      | _ => before)
    none

namespace CertStore

variable {isDnsName : HostName → Bool} {store : CertStore}
  {host : HostName} {port : ℕ} {secure : Bool} {circumstances : Circumstances}

/-! ## One decision -/

theorem loadTwice_support
    (hload : store.Rereads isDnsName circumstances.load)
    (hagain : (store.loadTrustedCerts isDnsName circumstances.load).Rereads
      isDnsName circumstances.again) (key : HostPort) :
    (store.loadTwice isDnsName circumstances).support key =
      store.support key := by
  unfold loadTwice
  rw [hagain.support, hload.support]

theorem setSessionResumptionSupport_session :
    (store.setSessionResumptionSupport isDnsName circumstances host port
      secure false).upcoming = store.upcoming :=
  upcoming_congr rfl rfl rfl

theorem support_session_self
    (hother : store.support (host, port) ≠ some !secure) :
    (store.setSessionResumptionSupport isDnsName circumstances host port
      secure false).support (host, port) = some secure := by
  have hsession : (store.setSessionResumptionSupport isDnsName circumstances
      host port secure false).session.resumptionSupport =
        emplace store.session.resumptionSupport (host, port) secure := rfl
  unfold support at hother ⊢
  rw [setSessionResumptionSupport_session, hsession]
  cases hupcoming : store.upcoming.lookup (host, port) with
  | some old =>
      rw [hupcoming, Option.some_or] at hother
      have hold : old = secure := by
        cases old <;> cases secure <;> simp_all
      rw [hold, Option.some_or]
  | none =>
      rw [hupcoming, Option.none_or] at hother
      rw [Option.none_or]
      cases hlookup : store.session.resumptionSupport.lookup (host, port) with
      | none => exact lookup_emplace_self hlookup
      | some old =>
          rw [hlookup] at hother
          have hold : old = secure := by
            cases old <;> cases secure <;> simp_all
          rw [emplace_of_some hlookup, hlookup, hold]

theorem support_session_of_ne {key : HostPort} (hne : key ≠ (host, port)) :
    (store.setSessionResumptionSupport isDnsName circumstances host port
      secure false).support key = store.support key := by
  have hsession : (store.setSessionResumptionSupport isDnsName circumstances
      host port secure false).session.resumptionSupport =
        emplace store.session.resumptionSupport (host, port) secure := rfl
  unfold support
  rw [setSessionResumptionSupport_session, hsession,
    lookup_emplace_of_ne hne]

def recordSupport (loaded : CertStore) (circumstances : Circumstances)
    (host : HostName) (port : ℕ) (secure : Bool) : CertStore :=
  let recorded := loaded.record circumstances
    (setSessionResumptionSupportInXml · host port secure)
  { recorded with
    persistent := { recorded.persistent with
      resumptionSupport :=
        emplace recorded.persistent.resumptionSupport (host, port) secure }
    session := { recorded.session with
      resumptionSupport :=
        recorded.session.resumptionSupport.filter (·.1 != (host, port)) } }

theorem setSessionResumptionSupport_known
    (hupcoming : (store.loadTwice isDnsName circumstances).upcoming =
      (store.loadTwice isDnsName circumstances).persistent.resumptionSupport) :
    store.setSessionResumptionSupport isDnsName circumstances host port secure
        true =
      if (store.loadTwice isDnsName circumstances).support (host, port) =
          some secure then store.loadTwice isDnsName circumstances
      else (store.loadTwice isDnsName circumstances).recordSupport
        circumstances host port secure := by
  rw [setSessionResumptionSupport_permanent]
  unfold support
  rw [hupcoming]
  rfl

section Recorded

variable {loaded : CertStore}
  (hupcoming : loaded.upcoming = loaded.persistent.resumptionSupport)

theorem recordSupport_persistent :
    (loaded.recordSupport circumstances host port
      secure).persistent.resumptionSupport =
        emplace loaded.persistent.resumptionSupport (host, port) secure := by
  simp [recordSupport]

theorem recordSupport_session :
    (loaded.recordSupport circumstances host port
      secure).session.resumptionSupport =
        loaded.session.resumptionSupport.filter (·.1 != (host, port)) := by
  simp [recordSupport]

theorem recordSupport_upcoming
    (hkept : DecisionKept circumstances loaded false) :
    (loaded.recordSupport circumstances host port secure).upcoming =
      emplace loaded.persistent.resumptionSupport (host, port) secure := by
  have hsettled : (loaded.recordSupport circumstances host port
      secure).settled = true := by
    rw [← hkept.record_settled
      (setSessionResumptionSupportInXml · host port secure)]
    exact settled_congr rfl rfl
  rw [upcoming_of_settled hsettled, recordSupport_persistent]

include hupcoming in
theorem lookup_of_unknown
    (hother : loaded.persistent.resumptionSupport.lookup (host, port) ≠
      some !secure)
    (hunknown : loaded.support (host, port) ≠ some secure) :
    loaded.persistent.resumptionSupport.lookup (host, port) = none := by
  cases hlookup : loaded.persistent.resumptionSupport.lookup (host, port) with
  | none => rfl
  | some old =>
      unfold support at hunknown
      rw [hupcoming, hlookup, Option.some_or] at hunknown
      rw [hlookup] at hother
      cases old <;> cases secure <;> simp_all

theorem support_recorded_self
    (hnone : loaded.persistent.resumptionSupport.lookup (host, port) = none)
    (hkept : DecisionKept circumstances loaded false) :
    (loaded.recordSupport circumstances host port secure).support
      (host, port) = some secure := by
  unfold support
  rw [recordSupport_upcoming hkept, lookup_emplace_self hnone, Option.some_or]

include hupcoming in
theorem support_recorded_of_ne {key : HostPort} (hne : key ≠ (host, port))
    (hkept : DecisionKept circumstances loaded false) :
    (loaded.recordSupport circumstances host port secure).support key =
      loaded.support key := by
  unfold support
  rw [recordSupport_upcoming hkept, lookup_emplace_of_ne hne,
    recordSupport_session, lookup_filter_of_ne hne, hupcoming]

end Recorded

end CertStore

/-! ## All decisions -/

section Decisions

variable {isDnsName : HostName → Bool} {store : CertStore}
  {host : HostName} {port : ℕ} {secure : Bool} {circumstances : Circumstances}

theorem DecisionTakes.support_self {permanent : Bool}
    (htakes : DecisionTakes isDnsName store
      (.setSessionResumptionSupport host port secure permanent
        circumstances)) :
    (store.setSessionResumptionSupport isDnsName circumstances host port
      secure permanent).support (host, port) = some secure := by
  cases permanent with
  | false => exact support_session_self htakes
  | true =>
      rcases htakes with ⟨-, hagain, hother, hkept⟩
      have hupcoming : (store.loadTwice isDnsName circumstances).upcoming = _ :=
        hagain.upcoming
      rw [setSessionResumptionSupport_known hupcoming]
      by_cases hknown : (store.loadTwice isDnsName circumstances).support
          (host, port) = some secure
      · rw [if_pos hknown]
        exact hknown
      · rw [if_neg hknown]
        exact support_recorded_self
          (lookup_of_unknown hupcoming hother hknown) (hkept hknown)

theorem DecisionTakes.support_of_ne {permanent : Bool} {key : HostPort}
    (htakes : DecisionTakes isDnsName store
      (.setSessionResumptionSupport host port secure permanent circumstances))
    (hne : key ≠ (host, port)) :
    (store.setSessionResumptionSupport isDnsName circumstances host port
      secure permanent).support key = store.support key := by
  cases permanent with
  | false => exact support_session_of_ne hne
  | true =>
      rcases htakes with ⟨hload, hagain, -, hkept⟩
      have hupcoming : (store.loadTwice isDnsName circumstances).upcoming = _ :=
        hagain.upcoming
      rw [setSessionResumptionSupport_known hupcoming,
        ← loadTwice_support hload hagain key]
      by_cases hknown : (store.loadTwice isDnsName circumstances).support
          (host, port) = some secure
      · rw [if_pos hknown]
      · rw [if_neg hknown]
        exact support_recorded_of_ne hupcoming hne (hkept hknown)

theorem lastDecision_decision {permanentOnly permanent : Bool}
    {inputs : List CertStoreInput} {key : HostPort} :
    lastDecision permanentOnly (inputs ++ [.setSessionResumptionSupport host
        port secure permanent circumstances]) key =
      if (host, port) = key ∧ (permanentOnly = true → permanent = true) then
        some secure
      else lastDecision permanentOnly inputs key := by
  unfold lastDecision
  rw [List.foldl_append]
  rfl

theorem lastDecision_question {permanentOnly : Bool}
    {inputs : List CertStoreInput} {context : LoadContext} {key : HostPort} :
    lastDecision permanentOnly (inputs ++ [.question context]) key =
      lastDecision permanentOnly inputs key := by
  unfold lastDecision
  rw [List.foldl_append]
  rfl

/-- In every run the store has the last decisions. -/
theorem reaches_support {inputs : List CertStoreInput} {outputs : List Empty}
    (hreach : (certStoreMachine isDnsName).ReachesWithin
      (DecisionTakes isDnsName) inputs outputs store) :
    ∀ key value, lastDecision false inputs key = some value →
      store.support key = some value := by
  refine hreach.history (fun inputs _ store => ∀ key value,
    lastDecision false inputs key = some value →
      store.support key = some value) ?_ ?_
  · intro initial _ key value hlast
    cases hlast
  · intro inputs _ current input following answer hbefore htakes hstep key
      value hlast
    have hfollowing : certStoreStep isDnsName current input = following :=
      congrArg Prod.fst (Option.some.inj hstep)
    rw [← hfollowing]
    cases input with
    | setSessionResumptionSupport host port secure permanent circumstances =>
        rw [lastDecision_decision] at hlast
        by_cases hkey : key = (host, port)
        · rw [if_pos ⟨hkey.symm, Bool.noConfusion⟩] at hlast
          rw [← hlast, hkey]
          exact htakes.support_self
        · have hne : ¬ ((host, port) = key ∧
              (false = true → permanent = true)) :=
            fun hboth => hkey hboth.1.symm
          rw [if_neg hne] at hlast
          have hsame : (current.setSessionResumptionSupport isDnsName
              circumstances host port secure permanent).support key =
                current.support key := htakes.support_of_ne hkey
          exact hsame.trans (hbefore key value hlast)
    | question context =>
        rw [lastDecision_question] at hlast
        exact (Rereads.support htakes key).trans (hbefore key value hlast)
    | setTrusted => exact htakes.elim
    | setInsecure => exact htakes.elim
    | fileChanges => exact htakes.elim
    | restart => exact htakes.elim

end Decisions

/-! ## The saved file -/

namespace CertStore

variable {isDnsName : HostName → Bool} {store : CertStore}

/-- The file has the entries that the program would find, and so has the
document in memory. -/
structure FileAgrees (store : CertStore) : Prop where
  disk : store.disk.support = store.upcoming
  element : ∀ root, store.file.element = some root →
    root.support = store.persistent.resumptionSupport

theorem fresh_upcoming (disk : StoredFile) :
    (fresh disk).upcoming = disk.support := rfl

theorem fresh_fileAgrees (disk : StoredFile) : (fresh disk).FileAgrees := by
  refine ⟨(fresh_upcoming disk).symm, ?_⟩
  intro root helement
  cases helement

theorem fresh_support (disk : StoredFile) (key : HostPort) :
    (fresh disk).support key = disk.support.lookup key := by
  unfold support
  rw [fresh_upcoming]
  exact Option.or_none

theorem save_fileAgrees {root : CertDocument} {time : ℕ}
    (helement : store.file.element = some root)
    (hsame : root.support = store.persistent.resumptionSupport) :
    (store.save (.saved time)).FileAgrees := by
  have hsave : store.save (.saved time) =
      { store with
        file := { store.file with modificationTime := some time }
        disk := .valid root time } := by
    unfold save
    rw [helement]
  have hcurrent : (store.save (.saved time)).modified = false := by
    rw [hsave]
    simp [modified, StoredFile.modificationTime]
  constructor
  · unfold upcoming
    rw [hcurrent, save_persistent, hsave]
    exact hsame
  · intro root' helement'
    rw [hsave] at helement'
    rw [save_persistent, ← hsame]
    exact congrArg CertDocument.support
      (Option.some.inj (helement'.symm.trans helement))

theorem FileAgrees.loadTrustedCerts (hagrees : store.FileAgrees)
    {context : LoadContext} {time : ℕ} (hweeding : context.weeding = .saved time)
    (hrereads : store.Rereads isDnsName context) :
    (store.loadTrustedCerts isDnsName context).FileAgrees := by
  cases hmodified : store.modified with
  | false =>
      have hsame : store.loadTrustedCerts isDnsName context = store := by
        unfold CertStore.loadTrustedCerts
        rw [hmodified]
        rfl
      rw [hsame]
      exact hagrees
  | true =>
      cases hroot : store.disk.root with
      | none =>
          have hopened : store.loadTrustedCerts isDnsName context =
              store.openFile := by
            unfold CertStore.loadTrustedCerts
            simp only [hmodified, openFile_element, hroot]
            rfl
          constructor
          · rw [hrereads, hopened, ← hagrees.disk]
            unfold StoredFile.support
            rw [openFile_disk_root]
          · intro root helement
            rw [hopened, openFile_element, hroot] at helement
            cases helement
      | some root =>
          have hkept := weed_support isDnsName context.now root
          by_cases hweeded : weed isDnsName context.now root = root
          · have hloaded : store.loadTrustedCerts isDnsName context =
                { store.openFile with
                  persistent := readEntries isDnsName context.now root
                  file := { store.openFile.file with
                    element := some (weed isDnsName context.now root) } } := by
              unfold CertStore.loadTrustedCerts
              simp only [hmodified, openFile_element, hroot, hweeded]
              rfl
            constructor
            · rw [hrereads, hloaded, ← hagrees.disk]
              unfold StoredFile.support
              simp only [openFile_disk_root]
            · intro root' helement
              rw [hloaded] at helement ⊢
              rw [← Option.some.inj helement, hkept]
              exact (readEntries_resumptionSupport isDnsName context.now
                root).symm
          · have hloaded : store.loadTrustedCerts isDnsName context =
                CertStore.save { store.openFile with
                  persistent := readEntries isDnsName context.now root
                  file := { store.openFile.file with
                    element := some (weed isDnsName context.now root) } }
                  (.saved time) := by
              unfold CertStore.loadTrustedCerts
              simp only [hmodified, openFile_element, hroot, hweeded, hweeding]
              rfl
            rw [hloaded]
            exact save_fileAgrees rfl hkept

theorem FileAgrees.recordSupport {loaded : CertStore}
    (hagrees : loaded.FileAgrees) {host : HostName} {port : ℕ} {secure : Bool}
    {circumstances : Circumstances} {time : ℕ} (hstorable : Storable host port)
    (hnone : loaded.persistent.resumptionSupport.lookup (host, port) = none)
    (hallowed : circumstances.allowedToSave = true)
    (helement : loaded.file.element.isSome = true)
    (hsaving : circumstances.saving = .saved time) :
    (loaded.recordSupport circumstances host port secure).FileAgrees := by
  rcases Option.isSome_iff_exists.mp helement with ⟨root, hroot⟩
  have hsame := hagrees.element root hroot
  have hchanged : (setSessionResumptionSupportInXml root host port
      secure).support =
        emplace loaded.persistent.resumptionSupport (host, port) secure := by
    rw [← hsame]
    refine support_setSessionResumptionSupportInXml hstorable ?_
    rw [hsame]
    exact hnone
  -- Saving does not look at the maps, so they may change before it.
  let changed : CertStore :=
    { persistent := { loaded.persistent with
        resumptionSupport :=
          emplace loaded.persistent.resumptionSupport (host, port) secure }
      session := { loaded.session with
        resumptionSupport :=
          loaded.session.resumptionSupport.filter (·.1 != (host, port)) }
      file := { loaded.file with
        element := some (setSessionResumptionSupportInXml root host port
          secure) }
      disk := loaded.disk }
  have hrecorded : loaded.recordSupport circumstances host port secure =
      changed.save (.saved time) := by
    simp [CertStore.recordSupport, record, hallowed, hroot, hsaving, save,
      changed]
  rw [hrecorded]
  exact save_fileAgrees rfl hchanged

end CertStore

section Saved

variable {isDnsName : HostName → Bool} {store : CertStore}
  {host : HostName} {port : ℕ} {secure : Bool} {circumstances : Circumstances}

theorem fileAgrees_loadTwice (hagrees : store.FileAgrees)
    (hload : store.Rereads isDnsName circumstances.load)
    (hagain : (store.loadTrustedCerts isDnsName circumstances.load).Rereads
      isDnsName circumstances.again)
    (hsaved : DecisionSaved isDnsName store
      (.setSessionResumptionSupport host port secure true circumstances)) :
    (store.loadTwice isDnsName circumstances).FileAgrees := by
  rcases hsaved with ⟨⟨_, hloadSaved⟩, ⟨_, hagainSaved⟩, -⟩
  exact (hagrees.loadTrustedCerts hloadSaved hload).loadTrustedCerts
    hagainSaved hagain

theorem DecisionSaved.permanent (hagrees : store.FileAgrees)
    (htakes : DecisionTakes isDnsName store
      (.setSessionResumptionSupport host port secure true circumstances))
    (hsaved : DecisionSaved isDnsName store
      (.setSessionResumptionSupport host port secure true circumstances)) :
    let after := store.setSessionResumptionSupport isDnsName circumstances host
      port secure true
    after.FileAgrees ∧ after.upcoming.lookup (host, port) = some secure ∧
      ∀ key, key ≠ (host, port) →
        after.upcoming.lookup key = store.upcoming.lookup key := by
  have hloaded := fileAgrees_loadTwice hagrees htakes.1 htakes.2.1 hsaved
  rcases htakes with ⟨hload, hagain, hother, hkept⟩
  rcases hsaved with ⟨-, -, hwritten⟩
  have hupcoming : (store.loadTwice isDnsName circumstances).upcoming =
      (store.loadTwice isDnsName circumstances).persistent.resumptionSupport :=
    hagain.upcoming
  have hsame : (store.loadTwice isDnsName circumstances).upcoming =
      store.upcoming := Eq.trans hagain hload
  intro after
  have hafter : after = _ := setSessionResumptionSupport_known hupcoming
  by_cases hknown : (store.loadTwice isDnsName circumstances).support
      (host, port) = some secure
  · rw [hafter, if_pos hknown]
    refine ⟨hloaded, ?_, fun key _ => by rw [hsame]⟩
    unfold support at hknown
    cases hlookup : (store.loadTwice isDnsName
        circumstances).persistent.resumptionSupport.lookup (host, port) with
    | none =>
        rw [hupcoming, hlookup, Option.none_or] at hknown
        exact absurd hknown (hwritten hlookup).2.1
    | some old =>
        rw [hupcoming, hlookup, Option.some_or] at hknown
        rw [hupcoming, hlookup, hknown]
  · rw [hafter, if_neg hknown, recordSupport_upcoming (hkept hknown)]
    have hnone := lookup_of_unknown hupcoming hother hknown
    rcases hwritten hnone with ⟨hstorable, -, hallowed, helement, _, hsaving⟩
    refine ⟨hloaded.recordSupport hstorable hnone hallowed helement hsaving,
      lookup_emplace_self hnone, ?_⟩
    intro key hne
    rw [lookup_emplace_of_ne hne, ← hupcoming, hsame]

/-- In every run that is saved the file has the last decisions. -/
theorem reaches_fileAgrees {inputs : List CertStoreInput}
    {outputs : List Empty}
    (hreach : (certStoreMachine isDnsName).ReachesWithin
      (fun store input => DecisionTakes isDnsName store input ∧
        DecisionSaved isDnsName store input) inputs outputs store) :
    store.FileAgrees ∧ ∀ key value, lastDecision true inputs key = some value →
      store.upcoming.lookup key = some value := by
  refine hreach.history (fun inputs _ store => store.FileAgrees ∧
    ∀ key value, lastDecision true inputs key = some value →
      store.upcoming.lookup key = some value) ?_ ?_
  · intro initial hinitial
    rcases hinitial with ⟨disk, rfl⟩
    refine ⟨fresh_fileAgrees disk, ?_⟩
    intro key value hlast
    cases hlast
  · intro inputs _ current input following answer hbefore hallowed hstep
    rcases hallowed with ⟨htakes, hsaved⟩
    rcases hbefore with ⟨hagrees, hlookup⟩
    have hfollowing : certStoreStep isDnsName current input = following :=
      congrArg Prod.fst (Option.some.inj hstep)
    rw [← hfollowing]
    cases input with
    | setSessionResumptionSupport host port secure permanent circumstances =>
        cases permanent with
        | false =>
            refine ⟨⟨hagrees.disk, hagrees.element⟩, ?_⟩
            intro key value hlast
            rw [lastDecision_decision, if_neg (by simp)] at hlast
            exact hlookup key value hlast
        | true =>
            rcases DecisionSaved.permanent hagrees htakes hsaved with
              ⟨hafter, hself, hothers⟩
            refine ⟨hafter, ?_⟩
            intro key value hlast
            rw [lastDecision_decision] at hlast
            by_cases hkey : key = (host, port)
            · rw [if_pos ⟨hkey.symm, fun _ => rfl⟩] at hlast
              rw [← hlast, hkey]
              exact hself
            · rw [if_neg fun hboth => hkey hboth.1.symm] at hlast
              exact (hothers key hkey).trans (hlookup key value hlast)
    | question context =>
        rcases hsaved with ⟨_, hweeding⟩
        refine ⟨hagrees.loadTrustedCerts hweeding htakes, ?_⟩
        intro key value hlast
        rw [lastDecision_question] at hlast
        have hsame : (certStoreStep isDnsName current
            (.question context)).upcoming = current.upcoming := htakes
        rw [hsame]
        exact hlookup key value hlast
    | setTrusted => exact htakes.elim
    | setInsecure => exact htakes.elim
    | fileChanges => exact htakes.elim
    | restart => exact htakes.elim

end Saved

/-- The session resumption support of a host is what has been decided last, and
after a restart what has been saved last. -/
theorem last_decision_wins {isDnsName : HostName → Bool}
    {inputs : List CertStoreInput} {outputs : List Empty} {store : CertStore}
    (hreach : (certStoreMachine isDnsName).ReachesWithin
      (DecisionTakes isDnsName) inputs outputs store)
    (host : HostName) (port : ℕ) :
    (∀ context secure, lastDecision false inputs (host, port) = some secure →
      (store.getSessionResumptionSupport isDnsName context host port).1 =
        some secure) ∧
      ((certStoreMachine isDnsName).ReachesWithin
          (fun store input => DecisionTakes isDnsName store input ∧
            DecisionSaved isDnsName store input) inputs outputs store →
        ∀ context secure,
          lastDecision true inputs (host, port) = some secure →
          ((fresh store.disk).getSessionResumptionSupport isDnsName context
            host port).1 = some secure) := by
  constructor
  · intro context secure hlast
    rw [getSessionResumptionSupport_eq]
    exact reaches_support hreach (host, port) secure hlast
  · intro hsaved context secure hlast
    rcases reaches_fileAgrees hsaved with ⟨hagrees, hlookup⟩
    rw [getSessionResumptionSupport_eq, fresh_support, hagrees.disk]
    exact hlookup (host, port) secure hlast

/-- A permanent decision for one port, and one for the session for another. -/
theorem last_decision_wins_two_ports :
    ∃ store, (certStoreMachine fun _ => true).ReachesWithin
        (DecisionTakes fun _ => true)
        [.setSessionResumptionSupport ['h'] 21 true true (savedAt 1),
          .setSessionResumptionSupport ['h'] 990 false false (savedAt 2)]
        [] store ∧
      (store.getSessionResumptionSupport (fun _ => true) ⟨5, .saved 3⟩ ['h']
        21).1 = some true ∧
      ((fresh store.disk).getSessionResumptionSupport (fun _ => true)
        ⟨5, .saved 3⟩ ['h'] 21).1 = some true := by
  let first : CertStoreInput :=
    .setSessionResumptionSupport ['h'] 21 true true (savedAt 1)
  let second : CertStoreInput :=
    .setSessionResumptionSupport ['h'] 990 false false (savedAt 2)
  let store := certStoreStep (fun _ => true) (fresh (.empty none)) first
  have hfirst : DecisionTakes (fun _ => true) (fresh (.empty none)) first :=
    ⟨by decide, by decide, by decide, fun _ => trivial⟩
  have hfirstSaved : DecisionSaved (fun _ => true) (fresh (.empty none))
      first :=
    ⟨⟨1, rfl⟩, ⟨1, rfl⟩, fun _ =>
      ⟨⟨by decide, by decide, by decide⟩, by decide, rfl, rfl, 1, rfl⟩⟩
  have hsecond : DecisionTakes (fun _ => true) store second := by
    change store.support (['h'], 990) ≠ some true
    decide
  have hstart : (certStoreMachine fun _ => true).ReachesWithin
      (DecisionTakes fun _ => true) [] [] (fresh (.empty none)) :=
    .start ⟨_, rfl⟩
  have hreach : (certStoreMachine fun _ => true).ReachesWithin
      (DecisionTakes fun _ => true) [first, second] []
      (certStoreStep (fun _ => true) store second) :=
    (hstart.next hfirst rfl).next hsecond rfl
  have hstartSaved : (certStoreMachine fun _ => true).ReachesWithin
      (fun store input => DecisionTakes (fun _ => true) store input ∧
        DecisionSaved (fun _ => true) store input)
      [] [] (fresh (.empty none)) := .start ⟨_, rfl⟩
  have hreachSaved : (certStoreMachine fun _ => true).ReachesWithin
      (fun store input => DecisionTakes (fun _ => true) store input ∧
        DecisionSaved (fun _ => true) store input)
      [first, second] [] (certStoreStep (fun _ => true) store second) :=
    (hstartSaved.next ⟨hfirst, hfirstSaved⟩ rfl).next ⟨hsecond, trivial⟩ rfl
  have hwins := last_decision_wins hreach ['h'] 21
  exact ⟨_, hreach, hwins.1 ⟨5, .saved 3⟩ true (by decide),
    hwins.2 hreachSaved ⟨5, .saved 3⟩ true (by decide)⟩

/-- A second decision does not replace the first one, neither for the session
nor persistently, and a permanent decision is not written after the same
decision for the session. -/
theorem first_decision_stays :
    (∃ store, (certStoreMachine fun _ => true).Reaches
        [.setSessionResumptionSupport ['h'] 21 true false (savedAt 1),
          .setSessionResumptionSupport ['h'] 21 false false (savedAt 2)]
        [] store ∧
      (store.getSessionResumptionSupport (fun _ => true) ⟨5, .saved 3⟩ ['h']
        21).1 = some true) ∧
    (∃ store, (certStoreMachine fun _ => true).Reaches
        [.setSessionResumptionSupport ['h'] 21 true true (savedAt 1),
          .setSessionResumptionSupport ['h'] 21 false true (savedAt 2)]
        [] store ∧
      (store.getSessionResumptionSupport (fun _ => true) ⟨5, .saved 3⟩ ['h']
        21).1 = some true) ∧
      ∃ store, (certStoreMachine fun _ => true).Reaches
        [.setSessionResumptionSupport ['h'] 21 true false (savedAt 1),
          .setSessionResumptionSupport ['h'] 21 true true (savedAt 2)]
        [] store ∧
      ((fresh store.disk).getSessionResumptionSupport (fun _ => true)
        ⟨5, .saved 3⟩ ['h'] 21).1 = none := by
  have hstart : (certStoreMachine fun _ => true).Reaches [] []
      (fresh (.empty none)) := .start ⟨_, rfl⟩
  refine ⟨⟨_, (hstart.next trivial rfl).next trivial rfl, by decide⟩,
    ⟨_, (hstart.next trivial rfl).next trivial rfl, by decide⟩,
    ⟨_, (hstart.next trivial rfl).next trivial rfl, by decide⟩⟩

end TabFtp
