import TabFtp.CertStore

/-!
# Trusted certificates and insecure hosts exclude each other

Whether a host is both trusted and insecure is a question about four pairs of
containers.  The two pairs inside the session and inside the persistent data
are kept apart by the store itself.  The two mixed pairs are not: a decision
for the session does not touch the persistent data.  They stay apart in the
runs in which no decision for the session contradicts a persistent entry and
no reload brings in an entry that contradicts the session.
-/

namespace TabFtp

def StoreData.Excludes (trusting hosts : StoreData) : Prop :=
  ∀ cert ∈ trusting.trustedCerts,
    (cert.host, cert.port) ∉ hosts.insecureHosts

def StoreData.Trusts (data : StoreData) (host : HostName) (port : ℕ) :
    Prop :=
  ∃ cert ∈ data.trustedCerts, cert.host = host ∧ cert.port = port

instance (trusting hosts : StoreData) : Decidable (trusting.Excludes hosts) :=
  inferInstanceAs (Decidable (∀ cert ∈ trusting.trustedCerts,
    (cert.host, cert.port) ∉ hosts.insecureHosts))

theorem StoreData.excludes_of_shrink
    {trusting hosts fewerCerts fewerHosts : StoreData}
    (hexcludes : trusting.Excludes hosts)
    (hcerts : fewerCerts.trustedCerts ⊆ trusting.trustedCerts)
    (hhosts : fewerHosts.insecureHosts ⊆ hosts.insecureHosts) :
    fewerCerts.Excludes fewerHosts := by
  intro cert hcert hmem
  exact hexcludes cert (hcerts hcert) (hhosts hmem)

theorem StoreData.Excludes.not_both
    {trusting hosts : StoreData} (hexcludes : trusting.Excludes hosts)
    {host : HostName} {port : ℕ} (htrusts : trusting.Trusts host port) :
    (host, port) ∉ hosts.insecureHosts := by
  obtain ⟨cert, hcert, hhost, hport⟩ := htrusts
  rw [← hhost, ← hport]
  exact hexcludes cert hcert

theorem StoreData.Excludes.add_cert
    {trusting hosts after : StoreData} (hexcludes : trusting.Excludes hosts)
    (cert : CertData) (hfree : (cert.host, cert.port) ∉ hosts.insecureHosts)
    (hafter : after.trustedCerts = trusting.trustedCerts ++ [cert]) :
    after.Excludes hosts := by
  intro other hother
  rw [hafter] at hother
  rcases List.mem_append.mp hother with hold | hnew
  · exact hexcludes other hold
  · rw [List.mem_singleton.mp hnew]
    exact hfree

theorem StoreData.Excludes.add_host
    {trusting hosts after : StoreData} (hexcludes : trusting.Excludes hosts)
    {host : HostName} {port : ℕ} (hfree : ¬ trusting.Trusts host port)
    (hafter : after.insecureHosts = hosts.insecureHosts.insert (host, port)) :
    trusting.Excludes after := by
  intro cert hcert hmem
  rw [hafter, List.mem_insert_iff] at hmem
  rcases hmem with hnew | hold
  · rw [Prod.mk.injEq] at hnew
    exact hfree ⟨cert, hcert, hnew.1, hnew.2⟩
  · exact hexcludes cert hcert hold

namespace CertStore

variable (isDnsName : HostName → Bool)

/-! ## What loading and saving leave alone -/

@[simp] theorem openFile_session (store : CertStore) :
    store.openFile.session = store.session := by
  unfold openFile
  split <;> rfl

@[simp] theorem openFile_persistent (store : CertStore) :
    store.openFile.persistent = store.persistent := by
  unfold openFile
  split <;> rfl

@[simp] theorem save_session (store : CertStore) (result : SaveResult) :
    (store.save result).session = store.session := by
  unfold save
  split
  · rfl
  · split <;> rfl

@[simp] theorem save_persistent (store : CertStore) (result : SaveResult) :
    (store.save result).persistent = store.persistent := by
  unfold save
  split
  · rfl
  · split <;> rfl

@[simp] theorem record_session
    (store : CertStore) (circumstances : Circumstances)
    (change : CertDocument → CertDocument) :
    (store.record circumstances change).session = store.session := by
  unfold record
  split_ifs
  · split
    · rfl
    · rw [save_session]
  · rfl

@[simp] theorem record_persistent
    (store : CertStore) (circumstances : Circumstances)
    (change : CertDocument → CertDocument) :
    (store.record circumstances change).persistent = store.persistent := by
  unfold record
  split_ifs
  · split
    · rfl
    · rw [save_persistent]
  · rfl

@[simp] theorem loadTrustedCerts_session
    (context : LoadContext) (store : CertStore) :
    (store.loadTrustedCerts isDnsName context).session = store.session := by
  unfold loadTrustedCerts
  split_ifs
  · rfl
  · cases hroot : store.openFile.file.element with
    | none => simp [hroot]
    | some root =>
        simp only [hroot]
        split_ifs <;> simp

theorem loadTrustedCerts_persistent
    (context : LoadContext) (store : CertStore) :
    (store.loadTrustedCerts isDnsName context).persistent =
        store.persistent ∨
      ∃ root, (store.loadTrustedCerts isDnsName context).persistent =
        readEntries isDnsName context.now root := by
  unfold loadTrustedCerts
  split_ifs
  · exact Or.inl rfl
  · cases hroot : store.openFile.file.element with
    | none => exact Or.inl (by simp [hroot])
    | some root =>
        refine Or.inr ⟨root, ?_⟩
        simp only [hroot]
        split_ifs <;> simp

theorem readEntries_excludes (now : ℤ) (root : CertDocument) :
    (readEntries isDnsName now root).Excludes
      (readEntries isDnsName now root) := by
  intro cert hcert hmem
  simp only [readEntries, weed, List.mem_dedup, List.mem_map,
    List.mem_filter] at hcert hmem
  obtain ⟨entry, ⟨_, haccept⟩, hkey⟩ := hmem
  simp only [Prod.mk.injEq] at hkey
  simp only [acceptHost, Bool.and_eq_true, Bool.not_eq_true'] at haccept
  have hany : (loadCertificates isDnsName now [] root.certificates).1.any
      (fun cert => cert.host == entry.host && cert.port == entry.port) =
        true := by
    refine List.any_eq_true.mpr ⟨cert, hcert, ?_⟩
    simp [hkey.1, hkey.2]
  rw [haccept.2] at hany
  contradiction

theorem loadTrustedCerts_excludes
    (context : LoadContext) {store : CertStore}
    (hexcludes : store.persistent.Excludes store.persistent) :
    (store.loadTrustedCerts isDnsName context).persistent.Excludes
      (store.loadTrustedCerts isDnsName context).persistent := by
  rcases loadTrustedCerts_persistent isDnsName context store with
    hsame | ⟨root, hread⟩
  · rw [hsame]
    exact hexcludes
  · rw [hread]
    exact readEntries_excludes isDnsName context.now root

/-! ## The exclusion of all four pairs -/

structure Agrees (store : CertStore) : Prop where
  sessionCerts : store.session.Excludes store.persistent
  sessionHosts : store.persistent.Excludes store.session

instance (store : CertStore) : Decidable store.Agrees :=
  decidable_of_iff
    (store.session.Excludes store.persistent ∧
      store.persistent.Excludes store.session)
    ⟨fun hboth => ⟨hboth.1, hboth.2⟩,
      fun hagrees => ⟨hagrees.sessionCerts, hagrees.sessionHosts⟩⟩

structure Exclusive (store : CertStore) : Prop extends Agrees store where
  session : store.session.Excludes store.session
  persistent : store.persistent.Excludes store.persistent

/-- The entries that a call of `LoadTrustedCerts` leaves contradict no
decision for the session. -/
def ReloadAgrees (context : LoadContext) (store : CertStore) : Prop :=
  (store.loadTrustedCerts isDnsName context).Agrees

instance (context : LoadContext) (store : CertStore) :
    Decidable (store.ReloadAgrees isDnsName context) :=
  inferInstanceAs (Decidable
    (store.loadTrustedCerts isDnsName context).Agrees)

theorem Exclusive.load
    {context : LoadContext} {store : CertStore}
    (hexclusive : store.Exclusive)
    (hreload : store.ReloadAgrees isDnsName context) :
    (store.loadTrustedCerts isDnsName context).Exclusive where
  toAgrees := hreload
  session := by
    rw [loadTrustedCerts_session]
    exact hexclusive.session
  persistent := loadTrustedCerts_excludes isDnsName context
    hexclusive.persistent

theorem fresh_exclusive (disk : StoredFile) : (fresh disk).Exclusive := by
  refine ⟨⟨?_, ?_⟩, ?_, ?_⟩ <;>
    · intro cert hcert
      simp [fresh, StoreData.none] at hcert

theorem mem_dropHost {hosts : List HostPort} {key other : HostPort} :
    other ∈ dropHost hosts key ↔ other ∈ hosts ∧ other ≠ key := by
  simp [dropHost]

theorem mem_dropCerts
    {certs : List CertData} {host : HostName} {port : ℕ} {cert : CertData} :
    cert ∈ dropCerts certs host port ↔
      cert ∈ certs ∧ ¬ (cert.host = host ∧ cert.port = port) := by
  simp [dropCerts, imp_iff_not_or]

theorem Exclusive.dropSessionCerts
    {store : CertStore} (hexclusive : store.Exclusive)
    (host : HostName) (port : ℕ) :
    (store.dropSessionCerts host port).Exclusive := by
  have hsub : dropCerts store.session.trustedCerts host port ⊆
      store.session.trustedCerts :=
    fun cert hcert => (mem_dropCerts.mp hcert).1
  exact
    { sessionCerts := StoreData.excludes_of_shrink hexclusive.sessionCerts
        hsub (List.Subset.refl _)
      sessionHosts := hexclusive.sessionHosts
      session := StoreData.excludes_of_shrink hexclusive.session hsub
        (List.Subset.refl _)
      persistent := hexclusive.persistent }

theorem Exclusive.dropSessionHost
    {store : CertStore} (hexclusive : store.Exclusive)
    (host : HostName) (port : ℕ) :
    (store.dropSessionHost host port).Exclusive := by
  have hsub : dropHost store.session.insecureHosts (host, port) ⊆
      store.session.insecureHosts :=
    fun other hother => (mem_dropHost.mp hother).1
  exact
    { sessionCerts := hexclusive.sessionCerts
      sessionHosts := StoreData.excludes_of_shrink hexclusive.sessionHosts
        (List.Subset.refl _) hsub
      session := StoreData.excludes_of_shrink hexclusive.session
        (List.Subset.refl _) hsub
      persistent := hexclusive.persistent }

theorem Exclusive.congr
    {store other : CertStore} (hexclusive : store.Exclusive)
    (hsessionCerts :
      other.session.trustedCerts = store.session.trustedCerts)
    (hsessionHosts :
      other.session.insecureHosts = store.session.insecureHosts)
    (hcerts : other.persistent.trustedCerts = store.persistent.trustedCerts)
    (hhosts :
      other.persistent.insecureHosts = store.persistent.insecureHosts) :
    other.Exclusive where
  sessionCerts := StoreData.excludes_of_shrink hexclusive.sessionCerts
    (hsessionCerts ▸ List.Subset.refl _) (hhosts ▸ List.Subset.refl _)
  sessionHosts := StoreData.excludes_of_shrink hexclusive.sessionHosts
    (hcerts ▸ List.Subset.refl _) (hsessionHosts ▸ List.Subset.refl _)
  session := StoreData.excludes_of_shrink hexclusive.session
    (hsessionCerts ▸ List.Subset.refl _)
    (hsessionHosts ▸ List.Subset.refl _)
  persistent := StoreData.excludes_of_shrink hexclusive.persistent
    (hcerts ▸ List.Subset.refl _) (hhosts ▸ List.Subset.refl _)

/-! ## Questions -/

theorem hasCertificate_iff
    (context : LoadContext) (store : CertStore)
    (host : HostName) (port : ℕ) :
    (store.hasCertificate isDnsName context host port).1 = true ↔
      store.session.Trusts host port ∨
        (store.loadTrustedCerts isDnsName context).persistent.Trusts
          host port := by
  unfold hasCertificate
  split_ifs with hsession
  · simp only [List.any_eq_true, Bool.and_eq_true, beq_iff_eq] at hsession
    simp only [true_iff]
    exact Or.inl hsession
  · have hnone : ¬ store.session.Trusts host port := by
      rintro ⟨cert, hcert, hhost, hport⟩
      exact hsession (List.any_eq_true.mpr
        ⟨cert, hcert, by simp [hhost, hport]⟩)
    rw [or_iff_right hnone]
    simp only [List.any_eq_true, Bool.and_eq_true, beq_iff_eq,
      StoreData.Trusts]

theorem isInsecure_iff
    (context : LoadContext) (store : CertStore)
    (host : HostName) (port : ℕ) :
    (store.isInsecure isDnsName context host port false).1 = true ↔
      (host, port) ∈ store.session.insecureHosts ∨
        (host, port) ∈ (store.loadTrustedCerts isDnsName
          context).persistent.insecureHosts := by
  unfold isInsecure
  split_ifs with hsession
  · simp only [Bool.not_false, Bool.true_and, List.contains_iff_mem]
      at hsession
    simp [hsession]
  · simp only [Bool.not_false, Bool.true_and, List.contains_iff_mem]
      at hsession
    simp [hsession]

/-- A store that keeps them apart answers so, too. -/
theorem Exclusive.answers
    {context : LoadContext} {store : CertStore}
    (hexclusive : store.Exclusive)
    (hreload : store.ReloadAgrees isDnsName context)
    {host : HostName} {port : ℕ}
    (htrusted :
      (store.hasCertificate isDnsName context host port).1 = true) :
    (store.isInsecure isDnsName context host port false).1 = false := by
  have hloaded := hexclusive.load isDnsName hreload
  rw [Bool.eq_false_iff, ne_eq, isInsecure_iff]
  rw [hasCertificate_iff] at htrusted
  have hkept := loadTrustedCerts_session isDnsName context store
  rintro (hsession | hpersistent)
  · rw [← hkept] at hsession htrusted
    rcases htrusted with htrusted | htrusted
    · exact hloaded.session.not_both htrusted hsession
    · exact hloaded.sessionHosts.not_both htrusted hsession
  · rw [← hkept] at htrusted
    rcases htrusted with htrusted | htrusted
    · exact hloaded.sessionCerts.not_both htrusted hpersistent
    · exact hloaded.persistent.not_both htrusted hpersistent

/-! ## Decisions -/

/-- The store that a permanent `SetInsecure` changes: `DoSetInsecure` and
the `IsInsecure` it calls both load the file. -/
def loadTwice (circumstances : Circumstances) (store : CertStore) :
    CertStore :=
  (store.loadTrustedCerts isDnsName circumstances.load).loadTrustedCerts
    isDnsName circumstances.again

def settled (store : CertStore) : Bool :=
  !store.modified || store.openFile.file.element.isNone

theorem settled_load
    {context : LoadContext} {store : CertStore}
    (hsettled : store.settled = true) :
    (store.loadTrustedCerts isDnsName context).persistent =
      store.persistent := by
  unfold settled at hsettled
  unfold loadTrustedCerts
  cases hmodified : store.modified with
  | false => simp
  | true =>
      simp only [hmodified, Bool.not_true, Bool.false_or,
        Option.isNone_iff_eq_none] at hsettled
      simp [hsettled]

theorem setInsecure_session
    (circumstances : Circumstances) (store : CertStore)
    (host : HostName) (port : ℕ) :
    store.setInsecure isDnsName circumstances host port false =
      { store with
        session := { store.session with
          trustedCerts := dropCerts store.session.trustedCerts host port
          insecureHosts := store.session.insecureHosts.insert
            (host, port) } } := by
  simp [setInsecure, dropSessionCerts]

theorem setTrusted_session
    (circumstances : Circumstances) (store : CertStore)
    (info : TlsSessionInfo) (all : Bool) :
    store.setTrusted isDnsName circumstances info false all =
      { store with
        session := { store.session with
          trustedCerts := store.session.trustedCerts ++ [certFor info all]
          insecureHosts := dropHost store.session.insecureHosts
            (info.host, info.port) } } := by
  simp [setTrusted, dropSessionHost, certFor]

theorem setInsecure_permanent
    (circumstances : Circumstances) (store : CertStore)
    (host : HostName) (port : ℕ) :
    store.setInsecure isDnsName circumstances host port true =
      let loaded := (store.dropSessionCerts host port).loadTwice isDnsName
        circumstances
      let recorded := loaded.record circumstances
        (setInsecureToXml · host port)
      if (host, port) ∈ loaded.persistent.insecureHosts then loaded
      else
        { recorded with
          persistent := { loaded.persistent with
            trustedCerts := dropCerts loaded.persistent.trustedCerts
              host port
            insecureHosts := loaded.persistent.insecureHosts.insert
              (host, port) } } := by
  simp only [setInsecure, doSetInsecure, loadTwice, isInsecure]
  split_ifs with hknown <;> simp_all

theorem setTrusted_permanent
    (circumstances : Circumstances) (store : CertStore)
    (info : TlsSessionInfo) (all : Bool) :
    store.setTrusted isDnsName circumstances info true all =
      let loaded := (store.dropSessionHost info.host
        info.port).loadTrustedCerts isDnsName circumstances.load
      let recorded := loaded.record circumstances
        (setTrustedInXml · (certFor info all) info.leaf)
      if loaded.isTrustedData isDnsName info.host info.port
          info.leaf.rawData true false = true then loaded
      else
        { recorded with
          persistent := { loaded.persistent with
            insecureHosts := dropHost loaded.persistent.insecureHosts
              (info.host, info.port)
            trustedCerts := loaded.persistent.trustedCerts ++
              [certFor info all] } } := by
  simp only [setTrusted, doSetTrusted, certFor]
  split_ifs with hknown <;> simp_all

theorem isTrustedData_exact
    (store : CertStore) (host : HostName) (port : ℕ) (data : List UInt8) :
    store.isTrustedData isDnsName host port data true false = true ↔
      data ≠ [] ∧ ∃ cert ∈ store.persistent.trustedCerts,
        cert.host = host ∧ cert.port = port ∧ cert.data = data := by
  cases data with
  | nil => simp [isTrustedData, doIsTrusted]
  | cons byte rest =>
      simp only [isTrustedData, doIsTrusted, List.isEmpty_cons,
        Bool.false_eq_true, if_false, Bool.and_false, Bool.false_and,
        Bool.or_false, Bool.not_true, List.any_eq_true, Bool.and_eq_true,
        beq_iff_eq, ne_eq, reduceCtorEq, not_false_eq_true, true_and]
      constructor
      · rintro ⟨cert, hcert, ⟨hport, hdata⟩, hhost⟩
        exact ⟨cert, hcert, hhost.symm, hport.symm, hdata⟩
      · rintro ⟨cert, hcert, hhost, hport, hdata⟩
        exact ⟨cert, hcert, ⟨hport.symm, hdata⟩, hhost.symm⟩

/-! ## The condition on the steps -/

/-- A permanent decision outlives the next question: either it is written
and there is a file afterwards, or nothing is written and the next question
has no file to read again.  `known` decisions are not written. -/
def DecisionKept
    (circumstances : Circumstances) (loaded : CertStore) (known : Bool) :
    Prop :=
  if !known && circumstances.allowedToSave &&
      loaded.file.element.isSome then
    match circumstances.saving with
    | .saved _ => True
    | .failed left => left.modificationTime.isSome = true
  else loaded.settled = true

theorem DecisionKept.record_settled
    {circumstances : Circumstances} {loaded : CertStore}
    (hkept : DecisionKept circumstances loaded false)
    (change : CertDocument → CertDocument) :
    (loaded.record circumstances change).settled = true := by
  unfold DecisionKept at hkept
  unfold record
  cases hallowed : circumstances.allowedToSave with
  | false => simpa [hallowed] using hkept
  | true =>
      cases helement : loaded.file.element with
      | none => simpa [hallowed, helement] using hkept
      | some root =>
          simp only [hallowed, helement, Bool.not_false, Bool.and_self,
            Option.isSome_some, if_true] at hkept
          cases hsaving : circumstances.saving with
          | saved time =>
              simp [settled, modified, save, StoredFile.modificationTime]
          | failed left =>
              rw [hsaving] at hkept
              obtain ⟨time, htime⟩ := Option.isSome_iff_exists.mp hkept
              simp [settled, modified, save, htime]

theorem settled_congr
    {store other : CertStore}
    (hfile : other.file = store.file) (hdisk : other.disk = store.disk) :
    other.settled = store.settled := by
  simp only [settled, modified, openFile, hfile, hdisk]
  cases store.disk with
  | empty time => rfl
  | broken time => rfl
  | valid root time => rfl
  | backup root time restoredAt => cases restoredAt <;> rfl

end CertStore

open CertStore

/-- The condition under which the decisions exclude each other.  A decision
for the session does not contradict a persistent entry, a call that reads the
file finds no entry that contradicts the session, and the file that receives
a permanent decision exists. -/
def decisionsAgree (isDnsName : HostName → Bool) (store : CertStore) :
    CertStoreInput → Prop
  | .setTrusted info false _ _ =>
      (info.host, info.port) ∉ store.persistent.insecureHosts
  | .setInsecure host port false _ =>
      ¬ store.persistent.Trusts host port
  | .setTrusted info true _ circumstances =>
      let cleared := store.dropSessionHost info.host info.port
      let loaded := cleared.loadTrustedCerts isDnsName circumstances.load
      cleared.ReloadAgrees isDnsName circumstances.load ∧
        DecisionKept circumstances loaded
          (loaded.isTrustedData isDnsName info.host info.port
            info.leaf.rawData true false)
  | .setInsecure host port true circumstances =>
      let cleared := store.dropSessionCerts host port
      let loaded := cleared.loadTwice isDnsName circumstances
      cleared.ReloadAgrees isDnsName circumstances.load ∧
        (cleared.loadTrustedCerts isDnsName
          circumstances.load).ReloadAgrees isDnsName circumstances.again ∧
        DecisionKept circumstances loaded
          (loaded.persistent.insecureHosts.contains (host, port))
  | .setSessionResumptionSupport _ _ _ false _ => True
  | .setSessionResumptionSupport _ _ _ true circumstances =>
      store.ReloadAgrees isDnsName circumstances.load ∧
        (store.loadTrustedCerts isDnsName
          circumstances.load).ReloadAgrees isDnsName circumstances.again
  | .question context => store.ReloadAgrees isDnsName context
  | .fileChanges _ => True
  | .restart => True

namespace CertStore

variable (isDnsName : HostName → Bool)

theorem Exclusive.loadTwice
    {circumstances : Circumstances} {store : CertStore}
    (hexclusive : store.Exclusive)
    (hreload : store.ReloadAgrees isDnsName circumstances.load)
    (hagain : (store.loadTrustedCerts isDnsName
      circumstances.load).ReloadAgrees isDnsName circumstances.again) :
    (store.loadTwice isDnsName circumstances).Exclusive :=
  (hexclusive.load isDnsName hreload).load isDnsName hagain

@[simp] theorem loadTwice_session
    (circumstances : Circumstances) (store : CertStore) :
    (store.loadTwice isDnsName circumstances).session = store.session := by
  simp [CertStore.loadTwice]

theorem Exclusive.trustPermanently
    {store after : CertStore} (hexclusive : store.Exclusive)
    (cert : CertData)
    (hfree : (cert.host, cert.port) ∉ store.session.insecureHosts)
    (hsession : after.session = store.session)
    (hcerts : after.persistent.trustedCerts =
      store.persistent.trustedCerts ++ [cert])
    (hhosts : after.persistent.insecureHosts =
      dropHost store.persistent.insecureHosts (cert.host, cert.port)) :
    after.Exclusive := by
  have hsub : after.persistent.insecureHosts ⊆
      store.persistent.insecureHosts := by
    intro key hkey
    rw [hhosts] at hkey
    exact (mem_dropHost.mp hkey).1
  have hshrunk : store.persistent.Excludes after.persistent :=
    StoreData.excludes_of_shrink hexclusive.persistent
      (List.Subset.refl _) hsub
  refine ⟨⟨?_, ?_⟩, ?_, ?_⟩
  · rw [hsession]
    exact StoreData.excludes_of_shrink hexclusive.sessionCerts
      (List.Subset.refl _) hsub
  · rw [hsession]
    exact hexclusive.sessionHosts.add_cert cert hfree hcerts
  · rw [hsession]
    exact hexclusive.session
  · refine hshrunk.add_cert cert ?_ hcerts
    rw [hhosts]
    exact fun hmem => (mem_dropHost.mp hmem).2 rfl

theorem Exclusive.distrustPermanently
    {store after : CertStore} (hexclusive : store.Exclusive)
    {host : HostName} {port : ℕ}
    (hfree : ¬ store.session.Trusts host port)
    (hsession : after.session = store.session)
    (hcerts : after.persistent.trustedCerts =
      dropCerts store.persistent.trustedCerts host port)
    (hhosts : after.persistent.insecureHosts =
      store.persistent.insecureHosts.insert (host, port)) :
    after.Exclusive := by
  have hsub : after.persistent.trustedCerts ⊆
      store.persistent.trustedCerts := by
    intro cert hcert
    rw [hcerts] at hcert
    exact (mem_dropCerts.mp hcert).1
  have hshrunk : after.persistent.Excludes store.persistent :=
    StoreData.excludes_of_shrink hexclusive.persistent hsub
      (List.Subset.refl _)
  refine ⟨⟨?_, ?_⟩, ?_, ?_⟩
  · rw [hsession]
    exact hexclusive.sessionCerts.add_host hfree hhosts
  · rw [hsession]
    exact StoreData.excludes_of_shrink hexclusive.sessionHosts hsub
      (List.Subset.refl _)
  · rw [hsession]
    exact hexclusive.session
  · refine hshrunk.add_host ?_ hhosts
    rintro ⟨cert, hcert, hhost, hport⟩
    rw [hcerts] at hcert
    exact (mem_dropCerts.mp hcert).2 ⟨hhost, hport⟩

theorem not_trusts_dropSessionCerts
    (store : CertStore) (host : HostName) (port : ℕ) :
    ¬ (store.dropSessionCerts host port).session.Trusts host port := by
  rintro ⟨cert, hcert, hkey⟩
  exact (mem_dropCerts.mp hcert).2 hkey

theorem not_mem_dropSessionHost
    (store : CertStore) (host : HostName) (port : ℕ) :
    (host, port) ∉
      (store.dropSessionHost host port).session.insecureHosts :=
  fun hmem => (mem_dropHost.mp hmem).2 rfl

end CertStore

/-! ## One step -/

theorem setTrusted_exclusive
    {isDnsName : HostName → Bool} {store : CertStore}
    {info : TlsSessionInfo} {permanent all : Bool}
    {circumstances : Circumstances}
    (hexclusive : store.Exclusive)
    (hagree : decisionsAgree isDnsName store
      (.setTrusted info permanent all circumstances)) :
    (store.setTrusted isDnsName circumstances info permanent
      all).Exclusive := by
  have hcleared := hexclusive.dropSessionHost info.host info.port
  cases permanent with
  | false =>
      rw [setTrusted_session]
      exact
        { sessionCerts := hcleared.sessionCerts.add_cert
            (certFor info all) hagree rfl
          sessionHosts := hcleared.sessionHosts
          session := hcleared.session.add_cert (certFor info all)
            (not_mem_dropSessionHost store info.host info.port) rfl
          persistent := hcleared.persistent }
  | true =>
      obtain ⟨hreload, _⟩ := hagree
      have hloaded := hcleared.load isDnsName hreload
      rw [setTrusted_permanent]
      simp only
      split_ifs with hknown
      · exact hloaded
      · refine hloaded.trustPermanently (certFor info all) ?_ ?_ rfl rfl
        · rw [loadTrustedCerts_session]
          exact not_mem_dropSessionHost store info.host info.port
        · simp

theorem setInsecure_exclusive
    {isDnsName : HostName → Bool} {store : CertStore}
    {host : HostName} {port : ℕ} {permanent : Bool}
    {circumstances : Circumstances}
    (hexclusive : store.Exclusive)
    (hagree : decisionsAgree isDnsName store
      (.setInsecure host port permanent circumstances)) :
    (store.setInsecure isDnsName circumstances host port
      permanent).Exclusive := by
  have hcleared := hexclusive.dropSessionCerts host port
  cases permanent with
  | false =>
      rw [setInsecure_session]
      exact
        { sessionCerts := hcleared.sessionCerts
          sessionHosts := hcleared.sessionHosts.add_host hagree rfl
          session := hcleared.session.add_host
            (not_trusts_dropSessionCerts store host port) rfl
          persistent := hcleared.persistent }
  | true =>
      obtain ⟨hreload, hagain, _⟩ := hagree
      have hloaded := hcleared.loadTwice isDnsName hreload hagain
      rw [setInsecure_permanent]
      simp only
      split_ifs with hknown
      · exact hloaded
      · refine hloaded.distrustPermanently ?_ ?_ rfl rfl
        · rw [loadTwice_session]
          exact not_trusts_dropSessionCerts store host port
        · simp

theorem setSessionResumptionSupport_permanent
    (isDnsName : HostName → Bool) (store : CertStore)
    (host : HostName) (port : ℕ) (secure : Bool)
    (circumstances : Circumstances) :
    store.setSessionResumptionSupport isDnsName circumstances host port
        secure true =
      let loaded := store.loadTwice isDnsName circumstances
      let recorded := loaded.record circumstances
        (setSessionResumptionSupportInXml · host port secure)
      if (loaded.persistent.resumptionSupport.lookup (host, port)).or
          (loaded.session.resumptionSupport.lookup (host, port)) =
            some secure then loaded
      else
        { recorded with
          persistent := { recorded.persistent with
            resumptionSupport := emplace
              recorded.persistent.resumptionSupport (host, port) secure }
          session := { recorded.session with
            resumptionSupport := recorded.session.resumptionSupport.filter
              (·.1 != (host, port)) } } := by
  set loaded := store.loadTwice isDnsName circumstances
  set recorded := loaded.record circumstances
    (setSessionResumptionSupportInXml · host port secure)
  have hafter : store.setSessionResumptionSupport isDnsName circumstances
        host port secure true =
      let done := if (loaded.persistent.resumptionSupport.lookup
            (host, port)).or (loaded.session.resumptionSupport.lookup
              (host, port)) = some secure then (false, loaded)
        else (true, recorded)
      if !done.1 then done.2
      else
        { done.2 with
          persistent := { done.2.persistent with
            resumptionSupport := emplace
              done.2.persistent.resumptionSupport (host, port) secure }
          session := { done.2.session with
            resumptionSupport := done.2.session.resumptionSupport.filter
              (·.1 != (host, port)) } } := rfl
  rw [hafter]
  by_cases hsame : (loaded.persistent.resumptionSupport.lookup
      (host, port)).or (loaded.session.resumptionSupport.lookup
        (host, port)) = some secure
  · simp only [hsame, if_true, Bool.not_false]
  · simp only [hsame, if_false, Bool.not_true, Bool.false_eq_true]
    rfl

theorem setSessionResumptionSupport_exclusive
    {isDnsName : HostName → Bool} {store : CertStore}
    {host : HostName} {port : ℕ} {secure permanent : Bool}
    {circumstances : Circumstances}
    (hexclusive : store.Exclusive)
    (hagree : decisionsAgree isDnsName store
      (.setSessionResumptionSupport host port secure permanent
        circumstances)) :
    (store.setSessionResumptionSupport isDnsName circumstances host port
      secure permanent).Exclusive := by
  cases permanent with
  | false => exact hexclusive.congr rfl rfl rfl rfl
  | true =>
      obtain ⟨hreload, hagain⟩ := hagree
      have hloaded := hexclusive.loadTwice isDnsName hreload hagain
      rw [setSessionResumptionSupport_permanent]
      simp only
      split_ifs
      · exact hloaded
      · exact hloaded.congr (by rw [record_session]) (by rw [record_session])
          (by rw [record_persistent]) (by rw [record_persistent])

theorem certStoreStep_exclusive
    {isDnsName : HostName → Bool} {store : CertStore}
    {input : CertStoreInput}
    (hexclusive : store.Exclusive)
    (hagree : decisionsAgree isDnsName store input) :
    (certStoreStep isDnsName store input).Exclusive := by
  cases input with
  | setTrusted info permanent all circumstances =>
      exact setTrusted_exclusive hexclusive hagree
  | setInsecure host port permanent circumstances =>
      exact setInsecure_exclusive hexclusive hagree
  | setSessionResumptionSupport host port secure permanent circumstances =>
      exact setSessionResumptionSupport_exclusive hexclusive hagree
  | question context => exact hexclusive.load isDnsName hagree
  | fileChanges disk => exact hexclusive.congr rfl rfl rfl rfl
  | restart => exact fresh_exclusive store.disk

/-- No host of the store is both in any run that meets the condition. -/
theorem reachable_storeExclusive
    {isDnsName : HostName → Bool} {inputs : List CertStoreInput}
    {outputs : List Empty} {store : CertStore}
    (hreach : (certStoreMachine isDnsName).ReachesWithin
      (decisionsAgree isDnsName) inputs outputs store) :
    store.Exclusive := by
  refine hreach.stateInvariant CertStore.Exclusive ?_ ?_
  · rintro initial ⟨disk, rfl⟩
    exact fresh_exclusive disk
  · intro current input following answer hinv hagree hstep
    simp only [certStoreMachine, Option.some.injEq, Prod.mk.injEq] at hstep
    rw [← hstep.1]
    exact certStoreStep_exclusive hinv hagree

/-! ## Decisions stand -/

/-- What a decision promises about the questions asked next. -/
def DecisionStands
    (isDnsName : HostName → Bool) (context : LoadContext)
    (store : CertStore) : CertStoreInput → Prop
  | .setTrusted info _ _ _ =>
      (store.hasCertificate isDnsName context info.host info.port).1 =
          true ∧
        (store.isInsecure isDnsName context info.host info.port false).1 =
          false
  | .setInsecure host port _ _ =>
      (store.isInsecure isDnsName context host port false).1 = true ∧
        (store.hasCertificate isDnsName context host port).1 = false
  | _ => True

theorem setTrusted_settled
    {isDnsName : HostName → Bool} {store : CertStore}
    {info : TlsSessionInfo} {all : Bool} {circumstances : Circumstances}
    (hkept :
      let loaded := (store.dropSessionHost info.host
        info.port).loadTrustedCerts isDnsName circumstances.load
      DecisionKept circumstances loaded
        (loaded.isTrustedData isDnsName info.host info.port
          info.leaf.rawData true false)) :
    (store.setTrusted isDnsName circumstances info true all).settled =
      true := by
  rw [setTrusted_permanent]
  simp only at hkept ⊢
  split_ifs with hknown
  · rw [hknown] at hkept
    simpa [DecisionKept] using hkept
  · rw [Bool.not_eq_true] at hknown
    rw [hknown] at hkept
    rw [← hkept.record_settled
      (setTrustedInXml · (certFor info all) info.leaf)]
    exact settled_congr rfl rfl

theorem setInsecure_settled
    {isDnsName : HostName → Bool} {store : CertStore}
    {host : HostName} {port : ℕ} {circumstances : Circumstances}
    (hkept :
      let loaded := (store.dropSessionCerts host port).loadTwice isDnsName
        circumstances
      DecisionKept circumstances loaded
        (loaded.persistent.insecureHosts.contains (host, port))) :
    (store.setInsecure isDnsName circumstances host port true).settled =
      true := by
  rw [setInsecure_permanent]
  simp only at hkept ⊢
  split_ifs with hknown
  · rw [List.contains_iff_mem.mpr hknown] at hkept
    simpa [DecisionKept] using hkept
  · rw [← List.contains_iff_mem, Bool.not_eq_true] at hknown
    rw [hknown] at hkept
    rw [← hkept.record_settled (setInsecureToXml · host port)]
    exact settled_congr rfl rfl

theorem setTrusted_trusts
    {isDnsName : HostName → Bool} (context : LoadContext)
    {store : CertStore} {info : TlsSessionInfo} {permanent all : Bool}
    {circumstances : Circumstances}
    (hagree : decisionsAgree isDnsName store
      (.setTrusted info permanent all circumstances)) :
    let after := store.setTrusted isDnsName circumstances info permanent all
    after.session.Trusts info.host info.port ∨
      (after.loadTrustedCerts isDnsName context).persistent.Trusts
        info.host info.port := by
  cases permanent with
  | false =>
      rw [setTrusted_session]
      exact Or.inl ⟨certFor info all, by simp, rfl, rfl⟩
  | true =>
      obtain ⟨_, hkept⟩ := hagree
      refine Or.inr ?_
      rw [settled_load isDnsName (setTrusted_settled hkept),
        setTrusted_permanent]
      simp only
      split_ifs with hknown
      · obtain ⟨_, cert, hcert, hhost, hport, _⟩ :=
          (isTrustedData_exact isDnsName _ _ _ _).mp hknown
        exact ⟨cert, hcert, hhost, hport⟩
      · exact ⟨certFor info all, by simp, rfl, rfl⟩

theorem setInsecure_insecure
    {isDnsName : HostName → Bool} (context : LoadContext)
    {store : CertStore} {host : HostName} {port : ℕ} {permanent : Bool}
    {circumstances : Circumstances}
    (hagree : decisionsAgree isDnsName store
      (.setInsecure host port permanent circumstances)) :
    let after := store.setInsecure isDnsName circumstances host port
      permanent
    (host, port) ∈ after.session.insecureHosts ∨
      (host, port) ∈
        (after.loadTrustedCerts isDnsName
          context).persistent.insecureHosts := by
  cases permanent with
  | false =>
      rw [setInsecure_session]
      exact Or.inl List.mem_insert_self
  | true =>
      obtain ⟨_, _, hkept⟩ := hagree
      refine Or.inr ?_
      rw [settled_load isDnsName (setInsecure_settled hkept),
        setInsecure_permanent]
      simp only
      split_ifs with hknown
      · exact hknown
      · exact List.mem_insert_self

/-- A decision stands directly after it. -/
theorem certStoreStep_stands
    {isDnsName : HostName → Bool} {context : LoadContext}
    {store : CertStore} {input : CertStoreInput}
    (hexclusive : store.Exclusive)
    (hagree : decisionsAgree isDnsName store input)
    (hreload : (certStoreStep isDnsName store input).ReloadAgrees isDnsName
      context) :
    DecisionStands isDnsName context
      (certStoreStep isDnsName store input) input := by
  have hafter := certStoreStep_exclusive hexclusive hagree
  cases input with
  | setTrusted info permanent all circumstances =>
      have htrusted := (hasCertificate_iff isDnsName context _ _ _).mpr
        (setTrusted_trusts context hagree)
      exact ⟨htrusted, hafter.answers isDnsName hreload htrusted⟩
  | setInsecure host port permanent circumstances =>
      have hinsecure := (isInsecure_iff isDnsName context _ _ _).mpr
        (setInsecure_insecure context hagree)
      refine ⟨hinsecure, ?_⟩
      rw [Bool.eq_false_iff]
      intro htrusted
      have hnot := hafter.answers isDnsName hreload htrusted
      simp only [certStoreStep] at hnot
      rw [hinsecure] at hnot
      contradiction
  | setSessionResumptionSupport host port secure permanent circumstances =>
      trivial
  | question context => trivial
  | fileChanges disk => trivial
  | restart => trivial

def plainInfo : TlsSessionInfo :=
  { host := ['h']
    port := 21
    algorithmWarnings := 0
    mismatchedHostname := false
    leaf := ⟨[1], 1, 9⟩
    leafEncoded := by decide }

/-- A call at a time when the certificate is valid and saving works. -/
def savedAt (time : ℕ) : Circumstances :=
  { load := ⟨5, .saved time⟩
    again := ⟨5, .saved time⟩
    allowedToSave := true
    saving := .saved time }

end TabFtp
