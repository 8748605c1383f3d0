import TabFtp.CertStoreExclusion

/-!
# Certificate trust follows the user's decisions

A store whose file is only ever written by the program itself trusts a
certificate for nothing the user has not decided.  The proof follows a
property of certificates through the four places that hold them: the
session, the persistent data, the loaded document and the file.  In the other
direction a decision is honoured unless it is lost with the file, or is
dropped because the same certificate is already trusted for the same host,
but not for its other names.
-/

namespace TabFtp

def XmlCertificate.cert (entry : XmlCertificate) : CertData :=
  { host := entry.host
    trustSans := entry.trustSans
    port := entry.port
    data := entry.data }

def StoredFile.certificates : StoredFile → List XmlCertificate
  | .empty _ => []
  | .broken _ => []
  | .valid root _ => root.certificates
  | .backup root _ _ => root.certificates

namespace CertStore

/-- Every certificate that the store holds somewhere has the property. -/
structure Holds (P : CertData → Prop) (store : CertStore) : Prop where
  session : ∀ cert ∈ store.session.trustedCerts, P cert
  persistent : ∀ cert ∈ store.persistent.trustedCerts, P cert
  element : ∀ root, store.file.element = some root →
    ∀ entry ∈ root.certificates, P entry.cert
  disk : ∀ entry ∈ store.disk.certificates, P entry.cert

def LeavesOnly (P : CertData → Prop) (result : SaveResult) : Prop :=
  ∀ left, result = .failed left →
    ∀ entry ∈ left.certificates, P entry.cert

variable {P : CertData → Prop} (isDnsName : HostName → Bool)

theorem Holds.mono
    {Q : CertData → Prop} {store : CertStore} (hholds : store.Holds P)
    (himp : ∀ cert, P cert → Q cert) :
    store.Holds Q where
  session cert hcert := himp cert (hholds.session cert hcert)
  persistent cert hcert := himp cert (hholds.persistent cert hcert)
  element root hroot entry hentry :=
    himp _ (hholds.element root hroot entry hentry)
  disk entry hentry := himp _ (hholds.disk entry hentry)

theorem acceptCertificate_eq
    {now : ℤ} {loaded : List CertData} {entry : XmlCertificate}
    {cert : CertData}
    (haccept : acceptCertificate isDnsName now loaded entry = some cert) :
    cert = entry.cert := by
  unfold acceptCertificate at haccept
  split_ifs at haccept
  exact (Option.some.inj haccept).symm

theorem loadCertificates_spec
    (now : ℤ) (loaded : List CertData) (entries : List XmlCertificate) :
    (∀ cert ∈ (loadCertificates isDnsName now loaded entries).1,
      cert ∈ loaded ∨ ∃ entry ∈ entries, cert = entry.cert) ∧
    (loadCertificates isDnsName now loaded entries).2 ⊆ entries := by
  induction entries generalizing loaded with
  | nil => simp [loadCertificates]
  | cons entry rest ih =>
      unfold loadCertificates
      cases haccept : acceptCertificate isDnsName now loaded entry with
      | none =>
          obtain ⟨hcerts, hkept⟩ := ih loaded
          refine ⟨?_, fun other hother =>
            List.mem_cons_of_mem _ (hkept hother)⟩
          intro cert hcert
          rcases hcerts cert hcert with hold | ⟨other, hother, heq⟩
          · exact Or.inl hold
          · exact Or.inr ⟨other, List.mem_cons_of_mem _ hother, heq⟩
      | some accepted =>
          obtain ⟨hcerts, hkept⟩ := ih (loaded ++ [accepted])
          simp only
          refine ⟨?_, List.cons_subset_cons _ hkept⟩
          intro cert hcert
          rcases hcerts cert hcert with hold | ⟨other, hother, heq⟩
          · rcases List.mem_append.mp hold with hold | hnew
            · exact Or.inl hold
            · rw [List.mem_singleton.mp hnew]
              exact Or.inr ⟨entry, List.mem_cons_self,
                acceptCertificate_eq isDnsName haccept⟩
          · exact Or.inr ⟨other, List.mem_cons_of_mem _ hother, heq⟩

theorem Holds.openFile
    {store : CertStore} (hholds : store.Holds P) :
    store.openFile.Holds P := by
  have hdisk := hholds.disk
  unfold CertStore.openFile
  split
  · next hempty =>
      refine ⟨hholds.session, hholds.persistent, ?_, hholds.disk⟩
      simp only [Option.some.injEq]
      rintro root rfl entry hentry
      simp at hentry
  · exact ⟨hholds.session, hholds.persistent, by simp, hholds.disk⟩
  · next root time hvalid =>
      refine ⟨hholds.session, hholds.persistent, ?_, hholds.disk⟩
      simp only [Option.some.injEq]
      rintro root' rfl
      rw [hvalid] at hdisk
      exact hdisk
  · next root _ time hbackup =>
      rw [hbackup] at hdisk
      refine ⟨hholds.session, hholds.persistent, ?_, hdisk⟩
      simp only [Option.some.injEq]
      rintro root' rfl
      exact hdisk
  · exact ⟨hholds.session, hholds.persistent, by simp, hholds.disk⟩

theorem Holds.save
    {store : CertStore} (hholds : store.Holds P)
    {result : SaveResult} (hleaves : LeavesOnly P result) :
    (store.save result).Holds P := by
  unfold CertStore.save
  cases hroot : store.file.element with
  | none => exact hholds
  | some root =>
      cases result with
      | saved time =>
          exact ⟨hholds.session, hholds.persistent,
            fun other hother => hholds.element other (hroot ▸ hother),
            hholds.element root hroot⟩
      | failed left =>
          exact ⟨hholds.session, hholds.persistent,
            fun other hother => hholds.element other (hroot ▸ hother),
            hleaves left rfl⟩

theorem Holds.loadTrustedCerts
    {store : CertStore} (hholds : store.Holds P)
    {context : LoadContext} (hleaves : LeavesOnly P context.weeding) :
    (store.loadTrustedCerts isDnsName context).Holds P := by
  have hopened := hholds.openFile
  unfold CertStore.loadTrustedCerts
  split_ifs
  · exact hholds
  · cases hroot : store.openFile.file.element with
    | none => simpa [hroot] using hopened
    | some root =>
        have helement := hopened.element root hroot
        obtain ⟨hcerts, hkept⟩ :=
          loadCertificates_spec isDnsName context.now [] root.certificates
        have hloaded : Holds P { store.openFile with
            persistent := readEntries isDnsName context.now root
            file := { store.openFile.file with
              element := some (weed isDnsName context.now root) } } := by
          refine ⟨hopened.session, ?_, ?_, hopened.disk⟩
          · intro cert hcert
            rcases hcerts cert hcert with hnone | ⟨entry, hentry, rfl⟩
            · simp at hnone
            · exact helement entry hentry
          · simp only [Option.some.injEq]
            rintro other rfl entry hentry
            exact helement entry (hkept hentry)
        simp only [hroot]
        split_ifs
        · exact hloaded
        · exact hloaded.save hleaves

theorem Holds.record
    {store : CertStore} (hholds : store.Holds P)
    {circumstances : Circumstances}
    (hleaves : LeavesOnly P circumstances.saving)
    (change : CertDocument → CertDocument)
    (hchange : ∀ root, (∀ entry ∈ root.certificates, P entry.cert) →
      ∀ entry ∈ (change root).certificates, P entry.cert) :
    (store.record circumstances change).Holds P := by
  unfold CertStore.record
  split_ifs
  · cases hroot : store.file.element with
    | none => exact hholds
    | some root =>
        have hchanged : Holds P { store with
            file := { store.file with element := some (change root) } } := by
          refine ⟨hholds.session, hholds.persistent, ?_, hholds.disk⟩
          simp only [Option.some.injEq]
          rintro other rfl
          exact hchange root (hholds.element root hroot)
        exact hchanged.save hleaves
  · exact hholds

theorem Holds.dropSessionHost
    {store : CertStore} (hholds : store.Holds P)
    (host : HostName) (port : ℕ) :
    (store.dropSessionHost host port).Holds P :=
  ⟨hholds.session, hholds.persistent, hholds.element, hholds.disk⟩

theorem Holds.dropSessionCerts
    {store : CertStore} (hholds : store.Holds P)
    (host : HostName) (port : ℕ) :
    (store.dropSessionCerts host port).Holds P :=
  ⟨fun cert hcert => hholds.session cert (mem_dropCerts.mp hcert).1,
    hholds.persistent, hholds.element, hholds.disk⟩

/-- Everything that a call can leave behind has the property. -/
structure CleanCall
    (P : CertData → Prop) (circumstances : Circumstances) : Prop where
  load : LeavesOnly P circumstances.load.weeding
  again : LeavesOnly P circumstances.again.weeding
  saving : LeavesOnly P circumstances.saving

theorem Holds.loadTwice
    {store : CertStore} (hholds : store.Holds P)
    {circumstances : Circumstances} (hclean : CleanCall P circumstances) :
    (store.loadTwice isDnsName circumstances).Holds P :=
  (hholds.loadTrustedCerts isDnsName hclean.load).loadTrustedCerts isDnsName
    hclean.again

theorem Holds.setTrusted
    {store : CertStore} (hholds : store.Holds P)
    {info : TlsSessionInfo} {permanent all : Bool}
    {circumstances : Circumstances} (hclean : CleanCall P circumstances)
    (hnew : P (certFor info all)) :
    (store.setTrusted isDnsName circumstances info permanent all).Holds
      P := by
  cases permanent with
  | false =>
      rw [setTrusted_session]
      refine ⟨?_, hholds.persistent, hholds.element, hholds.disk⟩
      intro cert hcert
      rcases List.mem_append.mp hcert with hold | hadded
      · exact hholds.session cert hold
      · rw [List.mem_singleton.mp hadded]
        exact hnew
  | true =>
      have hloaded := (hholds.dropSessionHost info.host
        info.port).loadTrustedCerts isDnsName hclean.load
      rw [setTrusted_permanent]
      simp only
      split_ifs
      · exact hloaded
      · have hrecorded := hloaded.record hclean.saving
          (setTrustedInXml · (certFor info all) info.leaf) ?_
        · refine ⟨hrecorded.session, ?_, hrecorded.element,
            hrecorded.disk⟩
          intro cert hcert
          rcases List.mem_append.mp hcert with hold | hadded
          · exact hloaded.persistent cert hold
          · rw [List.mem_singleton.mp hadded]
            exact hnew
        · intro root hroot entry hentry
          rcases List.mem_append.mp hentry with hold | hadded
          · exact hroot entry hold
          · rw [List.mem_singleton.mp hadded]
            exact hnew

theorem Holds.setInsecure
    {store : CertStore} (hholds : store.Holds P)
    {host : HostName} {port : ℕ} {permanent : Bool}
    {circumstances : Circumstances} (hclean : CleanCall P circumstances) :
    (store.setInsecure isDnsName circumstances host port permanent).Holds
      P := by
  have hcleared := hholds.dropSessionCerts host port
  cases permanent with
  | false =>
      rw [setInsecure_session]
      exact ⟨hcleared.session, hholds.persistent, hholds.element,
        hholds.disk⟩
  | true =>
      have hloaded := hcleared.loadTwice isDnsName hclean
      rw [setInsecure_permanent]
      simp only
      split_ifs
      · exact hloaded
      · have hrecorded := hloaded.record hclean.saving
          (setInsecureToXml · host port) ?_
        · exact ⟨hrecorded.session,
            fun cert hcert =>
              hloaded.persistent cert (mem_dropCerts.mp hcert).1,
            hrecorded.element, hrecorded.disk⟩
        · intro root hroot entry hentry
          exact hroot entry (List.mem_filter.mp hentry).1

theorem Holds.setSessionResumptionSupport
    {store : CertStore} (hholds : store.Holds P)
    {host : HostName} {port : ℕ} {secure permanent : Bool}
    {circumstances : Circumstances} (hclean : CleanCall P circumstances) :
    (store.setSessionResumptionSupport isDnsName circumstances host port
      secure permanent).Holds P := by
  cases permanent with
  | false =>
      exact ⟨hholds.session, hholds.persistent, hholds.element, hholds.disk⟩
  | true =>
      have hloaded := hholds.loadTwice isDnsName hclean
      have hrecorded := hloaded.record hclean.saving
        (setSessionResumptionSupportInXml · host port secure)
        fun root hroot => hroot
      rw [setSessionResumptionSupport_permanent]
      simp only
      split_ifs
      · exact hloaded
      · exact ⟨hrecorded.session, hrecorded.persistent, hrecorded.element,
          hrecorded.disk⟩

end CertStore

open CertStore

/-! ## Trust is backed by a decision -/

/-- A store whose program starts without a file. -/
def privateCertStore (isDnsName : HostName → Bool) :
    LabelledRuns.Machine CertStore CertStoreInput Empty :=
  { certStoreMachine isDnsName with
    initial := fun store => ∃ time, store = CertStore.fresh (.empty time) }

/-- A failed attempt to save leaves only certificates that were in the file
before. -/
def LeavesOld (store : CertStore) (result : SaveResult) : Prop :=
  ∀ left, result = .failed left →
    left.certificates ⊆ store.disk.certificates

/-- Nobody but the program changes the file. -/
def nobodyElse (store : CertStore) : CertStoreInput → Prop
  | .setTrusted _ _ _ circumstances
  | .setInsecure _ _ _ circumstances
  | .setSessionResumptionSupport _ _ _ _ circumstances =>
      LeavesOld store circumstances.load.weeding ∧
        LeavesOld store circumstances.again.weeding ∧
        LeavesOld store circumstances.saving
  | .question context => LeavesOld store context.weeding
  | .fileChanges _ => False
  | .restart => True

/-- The certificate is the one of an earlier call of `SetTrusted`. -/
def Decided (inputs : List CertStoreInput) (cert : CertData) : Prop :=
  ∃ info permanent all circumstances,
    .setTrusted info permanent all circumstances ∈ inputs ∧
      cert = certFor info all

theorem leavesOld_saved (store : CertStore) (time : ℕ) :
    LeavesOld store (.saved time) :=
  fun _ hleft => nomatch hleft

theorem LeavesOld.leavesOnly
    {P : CertData → Prop} {store : CertStore} (hholds : store.Holds P)
    {result : SaveResult} (hleaves : LeavesOld store result) :
    LeavesOnly P result :=
  fun left hleft entry hentry =>
    hholds.disk entry (hleaves left hleft hentry)

theorem certStoreStep_holds
    {isDnsName : HostName → Bool} {P : CertData → Prop}
    {store : CertStore} {input : CertStoreInput}
    (hholds : store.Holds P) (hnobody : nobodyElse store input)
    (hnew : ∀ info permanent all circumstances,
      input = .setTrusted info permanent all circumstances →
      P (certFor info all)) :
    (certStoreStep isDnsName store input).Holds P := by
  cases input with
  | setTrusted info permanent all circumstances =>
      obtain ⟨hload, hagain, hsaving⟩ := hnobody
      exact hholds.setTrusted isDnsName
        ⟨hload.leavesOnly hholds, hagain.leavesOnly hholds,
          hsaving.leavesOnly hholds⟩
        (hnew info permanent all circumstances rfl)
  | setInsecure host port permanent circumstances =>
      obtain ⟨hload, hagain, hsaving⟩ := hnobody
      exact hholds.setInsecure isDnsName
        ⟨hload.leavesOnly hholds, hagain.leavesOnly hholds,
          hsaving.leavesOnly hholds⟩
  | setSessionResumptionSupport host port secure permanent circumstances =>
      obtain ⟨hload, hagain, hsaving⟩ := hnobody
      exact hholds.setSessionResumptionSupport isDnsName
        ⟨hload.leavesOnly hholds, hagain.leavesOnly hholds,
          hsaving.leavesOnly hholds⟩
  | question context =>
      exact hholds.loadTrustedCerts isDnsName
        (LeavesOld.leavesOnly hholds hnobody)
  | fileChanges disk => exact hnobody.elim
  | restart =>
      refine ⟨?_, ?_, ?_, hholds.disk⟩ <;>
        simp [certStoreStep, CertStore.fresh, StoreData.none]

/-- Every certificate in the store has been decided on. -/
theorem reachable_decided
    {isDnsName : HostName → Bool} {inputs : List CertStoreInput}
    {outputs : List Empty} {store : CertStore}
    (hreach : (privateCertStore isDnsName).ReachesWithin nobodyElse
      inputs outputs store) :
    store.Holds (Decided inputs) := by
  refine hreach.history (fun inputs _ store => store.Holds (Decided inputs))
    ?_ ?_
  · rintro initial ⟨time, rfl⟩
    refine ⟨?_, ?_, ?_, ?_⟩ <;>
      simp [CertStore.fresh, StoreData.none, StoredFile.certificates]
  · intro inputs _ current input following answer hinv hnobody hstep
    simp only [privateCertStore, certStoreMachine, Option.some.injEq,
      Prod.mk.injEq] at hstep
    rw [← hstep.1]
    refine certStoreStep_holds (hinv.mono ?_) hnobody ?_
    · rintro cert ⟨info, permanent, all, circumstances, hmem, hcert⟩
      exact ⟨info, permanent, all, circumstances,
        List.mem_append_left _ hmem, hcert⟩
    · rintro info permanent all circumstances rfl
      exact ⟨info, permanent, all, circumstances, by simp, rfl⟩

/-! ## Matching -/

theorem loadTrustedCerts_persistent_eq
    (isDnsName : HostName → Bool) (context other : LoadContext)
    {store : CertStore} (hnow : context.now = other.now) :
    (store.loadTrustedCerts isDnsName context).persistent =
      (store.loadTrustedCerts isDnsName other).persistent := by
  unfold loadTrustedCerts
  split_ifs
  · rfl
  · cases hroot : store.openFile.file.element with
    | none => simp only [hroot]
    | some root =>
        simp only [hroot, hnow]
        split_ifs <;> simp

/-- Trust in `cert` covers the session `info`. -/
def CertData.Covers
    (isDnsName : HostName → Bool) (cert : CertData) (info : TlsSessionInfo) :
    Prop :=
  cert.port = info.port ∧ cert.data = info.leaf.rawData ∧
    (cert.host = info.host ∨
      cert.trustSans = true ∧ isDnsName info.host = true ∧
        info.mismatchedHostname = false)

theorem doIsTrusted_iff
    (isDnsName : HostName → Bool) (info : TlsSessionInfo)
    (certs : List CertData) :
    doIsTrusted isDnsName info.host info.port info.leaf.rawData certs
        (!info.mismatchedHostname) = true ↔
      ∃ cert ∈ certs, cert.Covers isDnsName info := by
  have hencoded : info.leaf.rawData.isEmpty = false := by
    simpa using info.leafEncoded
  simp only [doIsTrusted, hencoded, Bool.false_eq_true, if_false,
    List.any_eq_true, Bool.and_eq_true, Bool.or_eq_true, beq_iff_eq,
    Bool.not_eq_true', CertData.Covers]
  constructor
  · rintro ⟨cert, hcert, ⟨hport, hdata⟩, hhost | ⟨⟨hdns, hmatch⟩, hsans⟩⟩
    · exact ⟨cert, hcert, hport.symm, hdata, Or.inl hhost.symm⟩
    · exact ⟨cert, hcert, hport.symm, hdata, Or.inr ⟨hsans, hdns, hmatch⟩⟩
  · rintro ⟨cert, hcert, hport, hdata, hhost | ⟨hsans, hdns, hmatch⟩⟩
    · exact ⟨cert, hcert, ⟨hport.symm, hdata⟩, Or.inl hhost.symm⟩
    · exact ⟨cert, hcert, ⟨hport.symm, hdata⟩,
        Or.inr ⟨⟨hdns, hmatch⟩, hsans⟩⟩

/-- A session is trusted exactly if a certificate of the store covers it. -/
theorem isTrusted_iff
    (isDnsName : HostName → Bool) (context : LoadContext)
    (store : CertStore) (info : TlsSessionInfo) :
    (store.isTrusted isDnsName context info).1 = true ↔
      info.algorithmWarnings = 0 ∧
        ∃ cert ∈ store.session.trustedCerts ++
            (store.loadTrustedCerts isDnsName
              context).persistent.trustedCerts,
          cert.Covers isDnsName info := by
  unfold isTrusted
  split_ifs with hwarnings
  · simp [hwarnings]
  · rw [not_not] at hwarnings
    simp only [isTrustedData, Bool.not_false, Bool.true_and,
      Bool.or_eq_true, doIsTrusted_iff, loadTrustedCerts_session, hwarnings,
      true_and, List.mem_append]
    constructor
    · rintro (⟨cert, hcert, hcovers⟩ | ⟨cert, hcert, hcovers⟩)
      · exact ⟨cert, Or.inr hcert, hcovers⟩
      · exact ⟨cert, Or.inl hcert, hcovers⟩
    · rintro ⟨cert, hcert | hcert, hcovers⟩
      · exact Or.inr ⟨cert, hcert, hcovers⟩
      · exact Or.inl ⟨cert, hcert, hcovers⟩

/-- The condition under which a decision to trust takes effect.  A decision
for the session always does.  A permanent one has to outlive the next
question, and if it extends to all names of a certificate that is already
known for the host, some entry has to cover these names. -/
def TrustTakesEffect
    (isDnsName : HostName → Bool) (store : CertStore)
    (info : TlsSessionInfo) (permanent all : Bool)
    (circumstances : Circumstances) : Prop :=
  permanent = true →
    let loaded := (store.dropSessionHost info.host
      info.port).loadTrustedCerts isDnsName circumstances.load
    let known := loaded.isTrustedData isDnsName info.host info.port
      info.leaf.rawData true false
    DecisionKept circumstances loaded known ∧
      (all = true → known = true →
        ∃ cert ∈ loaded.session.trustedCerts ++
            loaded.persistent.trustedCerts,
          cert.port = info.port ∧ cert.data = info.leaf.rawData ∧
            cert.trustSans = true)

/-- The sessions that a decision to trust is about. -/
def CoveredBy
    (isDnsName : HostName → Bool) (info : TlsSessionInfo) (all : Bool)
    (seen : TlsSessionInfo) : Prop :=
  info.port = seen.port ∧ info.leaf.rawData = seen.leaf.rawData ∧
    (info.host = seen.host ∨
      all = true ∧ isDnsName seen.host = true ∧
        seen.mismatchedHostname = false)

/-- What has been trusted is covered from then on. -/
theorem setTrusted_covers
    {isDnsName : HostName → Bool} {store : CertStore}
    {info : TlsSessionInfo} {permanent all : Bool}
    {circumstances : Circumstances}
    (heffect : TrustTakesEffect isDnsName store info permanent all
      circumstances)
    (context : LoadContext) {seen : TlsSessionInfo}
    (hcovered : CoveredBy isDnsName info all seen) :
    let after := store.setTrusted isDnsName circumstances info permanent all
    ∃ cert ∈ after.session.trustedCerts ++
        (after.loadTrustedCerts isDnsName context).persistent.trustedCerts,
      cert.Covers isDnsName seen := by
  obtain ⟨hport, hdata, hname⟩ := hcovered
  have hnew : (certFor info all).Covers isDnsName seen :=
    ⟨hport, hdata, hname⟩
  cases permanent with
  | false =>
      rw [setTrusted_session]
      exact ⟨certFor info all, by simp, hnew⟩
  | true =>
      obtain ⟨hkept, hupgrade⟩ := heffect rfl
      simp only
      rw [settled_load isDnsName (setTrusted_settled hkept),
        setTrusted_permanent]
      simp only
      split_ifs with hknown
      · rcases hname with hhost | ⟨hall, hdns, hmatch⟩
        · obtain ⟨_, cert, hcert, hhost', hport', hdata'⟩ :=
            (isTrustedData_exact isDnsName _ _ _ _).mp hknown
          exact ⟨cert, List.mem_append_right _ hcert, hport'.trans hport,
            hdata'.trans hdata, Or.inl (hhost'.trans hhost)⟩
        · obtain ⟨cert, hcert, hport', hdata', hsans⟩ :=
            hupgrade hall hknown
          exact ⟨cert, hcert, hport'.trans hport, hdata'.trans hdata,
            Or.inr ⟨hsans, hdns, hmatch⟩⟩
      · exact ⟨certFor info all, by simp, hnew⟩

/-- Trust is backed by an earlier decision in every run, and a decision that
takes effect is followed at once. -/
theorem trust_follows_decisions
    {isDnsName : HostName → Bool} {inputs : List CertStoreInput}
    {outputs : List Empty} {store : CertStore}
    (hreach : (privateCertStore isDnsName).ReachesWithin nobodyElse
      inputs outputs store) :
    (∀ context seen,
      (store.isTrusted isDnsName context seen).1 = true →
      seen.algorithmWarnings = 0 ∧
        ∃ info permanent all circumstances,
          .setTrusted info permanent all circumstances ∈ inputs ∧
            CoveredBy isDnsName info all seen) ∧
    (∀ info permanent all circumstances,
      TrustTakesEffect isDnsName store info permanent all circumstances →
      ∀ context seen, seen.algorithmWarnings = 0 →
        CoveredBy isDnsName info all seen →
        ((store.setTrusted isDnsName circumstances info permanent
          all).isTrusted isDnsName context seen).1 = true) := by
  have hholds := reachable_decided hreach
  refine ⟨?_, ?_⟩
  · intro context seen htrusted
    obtain ⟨hwarnings, cert, hcert, hport, hdata, hname⟩ :=
      (isTrusted_iff isDnsName context store seen).mp htrusted
    have hdecided : Decided inputs cert := by
      rcases List.mem_append.mp hcert with hsession | hpersistent
      · exact hholds.session cert hsession
      · -- what a failed attempt to save would leave plays no part here
        let saving : LoadContext := ⟨context.now, .saved 0⟩
        have hclean : LeavesOnly (Decided inputs) saving.weeding :=
          fun left hleft => nomatch hleft
        rw [loadTrustedCerts_persistent_eq isDnsName context saving rfl]
          at hpersistent
        exact (hholds.loadTrustedCerts isDnsName hclean).persistent cert
          hpersistent
    obtain ⟨info, permanent, all, circumstances, hmem, rfl⟩ := hdecided
    exact ⟨hwarnings, info, permanent, all, circumstances, hmem, hport,
      hdata, hname⟩
  · intro info permanent all circumstances heffect context seen hwarnings
      hcovered
    exact (isTrusted_iff isDnsName context _ seen).mpr
      ⟨hwarnings, setTrusted_covers heffect context hcovered⟩

def aliasInfo : TlsSessionInfo :=
  { plainInfo with host := ['g'] }

/-- The first decision of a user, for all names of the certificate. -/
theorem trust_follows_decisions_all_names :
    (((CertStore.fresh (.empty none)).setTrusted (fun _ => true) (savedAt 1)
      plainInfo true true).isTrusted (fun _ => true) ⟨5, .saved 2⟩
        aliasInfo).1 = true := by
  have hfresh : (privateCertStore fun _ => true).ReachesWithin nobodyElse
      [] [] (CertStore.fresh (.empty none)) := .start ⟨none, rfl⟩
  have hrun := trust_follows_decisions hfresh
  refine hrun.2 plainInfo true true (savedAt 1) ?_ ⟨5, .saved 2⟩ aliasInfo
    rfl ⟨rfl, rfl, Or.inr ⟨rfl, rfl, rfl⟩⟩
  intro _
  exact ⟨trivial, fun _ hknown => absurd hknown (by decide)⟩

/-- A certificate that is permanently trusted for its host is then trusted
for all its names, which changes nothing. -/
theorem trust_in_all_names_lost :
    ¬ ∀ (isDnsName : HostName → Bool) (inputs : List CertStoreInput)
        (outputs : List Empty) (store : CertStore),
      (privateCertStore isDnsName).ReachesWithin nobodyElse inputs outputs
        store →
      ∀ info permanent all circumstances context seen,
        seen.algorithmWarnings = 0 →
        CoveredBy isDnsName info all seen →
        ((store.setTrusted isDnsName circumstances info permanent
          all).isTrusted isDnsName context seen).1 = true := by
  intro hall
  have hfresh : (privateCertStore fun _ => true).ReachesWithin nobodyElse
      [] [] (CertStore.fresh (.empty none)) := .start ⟨none, rfl⟩
  have hclean : nobodyElse (CertStore.fresh (.empty none))
      (.setTrusted plainInfo true false (savedAt 1)) :=
    ⟨leavesOld_saved _ 1, leavesOld_saved _ 1, leavesOld_saved _ 1⟩
  have htrusted := hall _ _ _ _ (hfresh.next hclean rfl)
    plainInfo true true (savedAt 2) ⟨5, .saved 3⟩ aliasInfo rfl
    ⟨rfl, rfl, Or.inr ⟨rfl, rfl, rfl⟩⟩
  exact absurd htrusted (by decide)

end TabFtp
