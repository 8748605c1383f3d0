import TabFtp.LabelledRuns
import Mathlib.Data.List.Dedup
import Mathlib.Tactic

/-!
# The certificate store and its XML file

`cert_store` keeps the user's decisions about certificates and insecure
hosts twice, for the session and persistently.  `xml_cert_store` mirrors the
persistent decisions in a file that is read again whenever its modification
time is not the one last seen.  The store below consists of both classes, the
part of `CXmlFile` they rely on and the file itself; what the file system
does with a call is an argument of the call.
-/

namespace TabFtp

abbrev HostName := List Char

abbrev HostPort := HostName × ℕ

/-- `cert_store::t_certData`. -/
structure CertData where
  host : HostName
  trustSans : Bool
  port : ℕ
  data : List UInt8

/-- `cert_store::data`. -/
structure StoreData where
  trustedCerts : List CertData
  insecureHosts : List HostPort
  resumptionSupport : List (HostPort × Bool)

def StoreData.none : StoreData := ⟨[], [], []⟩

structure X509Certificate where
  rawData : List UInt8
  activationTime : ℤ
  expirationTime : ℤ

/-- The part of `fz::tls_session_info` that the store reads.  `leaf` is the
first certificate of the chain; a certificate of a session has an encoding. -/
structure TlsSessionInfo where
  host : HostName
  port : ℕ
  algorithmWarnings : ℕ
  mismatchedHostname : Bool
  leaf : X509Certificate
  leafEncoded : leaf.rawData ≠ []

/-- A `Certificate` element.  `data` is the decoded text of its `Data` child.
The port is read as an unsigned number by `LoadTrustedCerts` (`port`) and as
a signed one by `SetInsecureToXml` (`portInt`). -/
structure XmlCertificate where
  data : List UInt8
  activationTime : ℤ
  expirationTime : ℤ
  host : HostName
  port : ℕ
  portInt : ℤ
  trustSans : Bool
  deriving DecidableEq

structure XmlHost where
  host : HostName
  port : ℕ
  deriving DecidableEq

structure XmlResumption where
  host : HostName
  port : ℕ
  secure : Bool
  deriving DecidableEq

structure CertDocument where
  certificates : List XmlCertificate
  hosts : List XmlHost
  resumption : List XmlResumption
  deriving DecidableEq

/-- What `CXmlFile::Load` finds.  Every case carries the modification time of
the file, which is absent if there is no such file.  An `empty` file has no
content and no backup; a `backup` is used in place of an unusable file and
gets the time `restoredAt` when it can be copied back. -/
inductive StoredFile
  | empty (time : Option ℕ)
  | broken (time : Option ℕ)
  | valid (root : CertDocument) (time : ℕ)
  | backup (root : CertDocument) (time restoredAt : Option ℕ)

def StoredFile.modificationTime : StoredFile → Option ℕ
  | .empty time => time
  | .broken time => time
  | .valid _ time => some time
  | .backup _ time _ => time

/-- How `CXmlFile::Save` ends; a failed attempt leaves some file behind. -/
inductive SaveResult
  | saved (time : ℕ)
  | failed (left : StoredFile)

/-- `CXmlFile`: `m_modificationTime` and `m_element`. -/
structure XmlFile where
  modificationTime : Option ℕ
  element : Option CertDocument

structure CertStore where
  persistent : StoreData
  session : StoreData
  file : XmlFile
  disk : StoredFile

/-- What a call of `LoadTrustedCerts` meets: the time, and how saving the
file ends if entries had to be removed. -/
structure LoadContext where
  now : ℤ
  weeding : SaveResult

/-- What a decision of the user meets.  Some decisions load the file twice. -/
structure Circumstances where
  load : LoadContext
  again : LoadContext
  allowedToSave : Bool
  saving : SaveResult

/-- Insertion into a `std::map`, which keeps an existing entry. -/
def emplace (entries : List (HostPort × Bool)) (key : HostPort)
    (value : Bool) : List (HostPort × Bool) :=
  if entries.any (·.1 == key) then entries else entries ++ [(key, value)]

namespace CertStore

/-- `cert_store::DoIsTrusted`.  `isDnsName` tells whether the address type of
a host is unknown. -/
def doIsTrusted
    (isDnsName : HostName → Bool) (host : HostName) (port : ℕ)
    (data : List UInt8) (trustedCerts : List CertData) (allowSans : Bool) :
    Bool :=
  if data.isEmpty then false
  else
    trustedCerts.any fun cert =>
      port == cert.port && cert.data == data &&
        (host == cert.host ||
          isDnsName host && allowSans && cert.trustSans)

/-! ## The file -/

def modified (store : CertStore) : Bool :=
  match store.file.modificationTime with
  | none => true
  | some time => store.disk.modificationTime != some time

/-- `CXmlFile::Load`. -/
def openFile (store : CertStore) : CertStore :=
  match store.disk with
  | .empty time =>
      { store with file := ⟨time, some ⟨[], [], []⟩⟩ }
  | .broken _ =>
      { store with file := ⟨none, none⟩ }
  | .valid root time =>
      { store with file := ⟨some time, some root⟩ }
  | .backup root _ (some time) =>
      { store with file := ⟨some time, some root⟩, disk := .valid root time }
  | .backup _ _ none =>
      { store with file := ⟨none, none⟩ }

def save (store : CertStore) (result : SaveResult) : CertStore :=
  match store.file.element with
  | none => store
  | some root =>
      match result with
      | .saved time =>
          { store with
            file := { store.file with modificationTime := some time }
            disk := .valid root time }
      | .failed left =>
          { store with
            file := { store.file with
              modificationTime := left.modificationTime }
            disk := left }

/-- One `Certificate` element in `LoadTrustedCerts`. -/
def acceptCertificate
    (isDnsName : HostName → Bool) (now : ℤ) (loaded : List CertData)
    (entry : XmlCertificate) : Option CertData :=
  if entry.data.isEmpty then none
  else if entry.host.isEmpty || entry.port < 1 || 65535 < entry.port then none
  else if entry.activationTime = 0 || now < entry.activationTime then none
  else if entry.expirationTime = 0 || entry.expirationTime < now then none
  else if doIsTrusted isDnsName entry.host entry.port entry.data loaded false
    then none
  else
    some
      { host := entry.host
        trustSans := entry.trustSans
        port := entry.port
        data := entry.data }

def loadCertificates (isDnsName : HostName → Bool) (now : ℤ) :
    List CertData → List XmlCertificate →
    List CertData × List XmlCertificate
  | loaded, [] => (loaded, [])
  | loaded, entry :: rest =>
      match acceptCertificate isDnsName now loaded entry with
      | none => loadCertificates isDnsName now loaded rest
      | some cert =>
          let tail := loadCertificates isDnsName now (loaded ++ [cert]) rest
          (tail.1, entry :: tail.2)

/-- One `Host` element in `LoadTrustedCerts`: a host can't be both trusted
and insecure. -/
def acceptHost (trustedCerts : List CertData) (entry : XmlHost) : Bool :=
  !(entry.host.isEmpty || entry.port < 1 || 65535 < entry.port) &&
    !trustedCerts.any fun cert =>
      cert.host == entry.host && cert.port == entry.port

def acceptResumption (entry : XmlResumption) : Bool :=
  !(entry.host.isEmpty || entry.port < 1 || 65535 < entry.port)

def weed (isDnsName : HostName → Bool) (now : ℤ) (root : CertDocument) :
    CertDocument :=
  let loaded := loadCertificates isDnsName now [] root.certificates
  { certificates := loaded.2
    hosts := root.hosts.filter (acceptHost loaded.1)
    resumption := root.resumption.filter acceptResumption }

/-- The entries that `LoadTrustedCerts` takes from the file. -/
def readEntries (isDnsName : HostName → Bool) (now : ℤ)
    (root : CertDocument) : StoreData :=
  let loaded := loadCertificates isDnsName now [] root.certificates
  let kept := weed isDnsName now root
  { trustedCerts := loaded.1
    insecureHosts :=
      (kept.hosts.map fun entry => (entry.host, entry.port)).dedup
    resumptionSupport := kept.resumption.foldl
      (fun entries entry =>
        emplace entries (entry.host, entry.port) entry.secure) [] }

def loadTrustedCerts
    (isDnsName : HostName → Bool) (context : LoadContext)
    (store : CertStore) : CertStore :=
  if !store.modified then store
  else
    let opened := store.openFile
    match opened.file.element with
    | none => opened
    | some root =>
        let kept := weed isDnsName context.now root
        let loaded : CertStore :=
          { opened with
            persistent := readEntries isDnsName context.now root
            file := { opened.file with element := some kept } }
        if kept = root then loaded else loaded.save context.weeding

/-! ## Questions -/

/-- The private overload of `cert_store::IsTrusted`. -/
def isTrustedData
    (isDnsName : HostName → Bool) (store : CertStore)
    (host : HostName) (port : ℕ) (data : List UInt8)
    (permanentOnly allowSans : Bool) : Bool :=
  doIsTrusted isDnsName host port data store.persistent.trustedCerts
      allowSans ||
    !permanentOnly &&
      doIsTrusted isDnsName host port data store.session.trustedCerts
        allowSans

/-- `cert_store::IsTrusted`, with the store it leaves. -/
def isTrusted
    (isDnsName : HostName → Bool) (context : LoadContext)
    (store : CertStore) (info : TlsSessionInfo) : Bool × CertStore :=
  if info.algorithmWarnings ≠ 0 then (false, store)
  else
    let loaded := store.loadTrustedCerts isDnsName context
    (loaded.isTrustedData isDnsName info.host info.port info.leaf.rawData
      false (!info.mismatchedHostname), loaded)

def isInsecure
    (isDnsName : HostName → Bool) (context : LoadContext)
    (store : CertStore) (host : HostName) (port : ℕ)
    (permanentOnly : Bool) : Bool × CertStore :=
  if !permanentOnly && store.session.insecureHosts.contains (host, port) then
    (true, store)
  else
    let loaded := store.loadTrustedCerts isDnsName context
    (loaded.persistent.insecureHosts.contains (host, port), loaded)

def hasCertificate
    (isDnsName : HostName → Bool) (context : LoadContext)
    (store : CertStore) (host : HostName) (port : ℕ) : Bool × CertStore :=
  if store.session.trustedCerts.any
      (fun cert => cert.host == host && cert.port == port) then
    (true, store)
  else
    let loaded := store.loadTrustedCerts isDnsName context
    (loaded.persistent.trustedCerts.any
      (fun cert => cert.host == host && cert.port == port), loaded)

/-- `cert_store::GetSessionResumptionSupport`; index 0 is the persistent
map. -/
def getSessionResumptionSupport
    (isDnsName : HostName → Bool) (context : LoadContext)
    (store : CertStore) (host : HostName) (port : ℕ) :
    Option Bool × CertStore :=
  let loaded := store.loadTrustedCerts isDnsName context
  ((loaded.persistent.resumptionSupport.lookup (host, port)).or
    (loaded.session.resumptionSupport.lookup (host, port)), loaded)

/-! ## Decisions -/

def dropCerts (certs : List CertData) (host : HostName) (port : ℕ) :
    List CertData :=
  certs.filter fun cert => !(cert.host == host && cert.port == port)

def dropHost (hosts : List HostPort) (key : HostPort) : List HostPort :=
  hosts.filter (· != key)

/-- A host can't be both trusted and insecure: `SetInsecure` first takes the
certificates of the host out of the session. -/
def dropSessionCerts (store : CertStore) (host : HostName) (port : ℕ) :
    CertStore :=
  { store with
    session := { store.session with
      trustedCerts := dropCerts store.session.trustedCerts host port } }

/-- `SetTrusted` first takes the host out of the session's insecure hosts. -/
def dropSessionHost (store : CertStore) (host : HostName) (port : ℕ) :
    CertStore :=
  { store with
    session := { store.session with
      insecureHosts := dropHost store.session.insecureHosts (host, port) } }

def setInsecureToXml (root : CertDocument) (host : HostName) (port : ℕ) :
    CertDocument :=
  { root with
    certificates := root.certificates.filter fun cert =>
      host != cert.host || (port : ℤ) != cert.portInt
    hosts := root.hosts ++ [⟨host, port⟩] }

def setTrustedInXml
    (root : CertDocument) (cert : CertData) (certificate : X509Certificate) :
    CertDocument :=
  { root with
    certificates := root.certificates ++
      [{ data := cert.data
         activationTime := certificate.activationTime
         expirationTime := certificate.expirationTime
         host := cert.host
         port := cert.port
         portInt := cert.port
         trustSans := cert.trustSans }]
    hosts := root.hosts.filter fun entry =>
      cert.host != entry.host || cert.port != entry.port }

def setResumptionEntry (host : HostName) (port : ℕ) (secure : Bool) :
    List XmlResumption → List XmlResumption
  | [] => [⟨host, port, secure⟩]
  | entry :: rest =>
      if entry.host = host ∧ entry.port = port then
        { entry with secure := secure } :: rest
      else entry :: setResumptionEntry host port secure rest

def setSessionResumptionSupportInXml
    (root : CertDocument) (host : HostName) (port : ℕ) (secure : Bool) :
    CertDocument :=
  { root with
    resumption := setResumptionEntry host port secure root.resumption }

/-- The common end of the `DoSet` methods of `xml_cert_store`: if the file
may be saved and is loaded, change it and save it. -/
def record
    (store : CertStore) (circumstances : Circumstances)
    (change : CertDocument → CertDocument) : CertStore :=
  if circumstances.allowedToSave then
    match store.file.element with
    | none => store
    | some root =>
        CertStore.save
          { store with
            file := { store.file with element := some (change root) } }
          circumstances.saving
  else store

def doSetInsecure
    (isDnsName : HostName → Bool) (circumstances : Circumstances)
    (store : CertStore) (host : HostName) (port : ℕ) : Bool × CertStore :=
  let loaded := store.loadTrustedCerts isDnsName circumstances.load
  let known :=
    loaded.isInsecure isDnsName circumstances.again host port true
  if known.1 then (false, known.2)
  else
    (true, known.2.record circumstances (setInsecureToXml · host port))

def setInsecure
    (isDnsName : HostName → Bool) (circumstances : Circumstances)
    (store : CertStore) (host : HostName) (port : ℕ) (permanent : Bool) :
    CertStore :=
  let cleared := store.dropSessionCerts host port
  if !permanent then
    { cleared with
      session := { cleared.session with
        insecureHosts :=
          cleared.session.insecureHosts.insert (host, port) } }
  else
    let done := cleared.doSetInsecure isDnsName circumstances host port
    if !done.1 then done.2
    else
      { done.2 with
        persistent := { done.2.persistent with
          trustedCerts := dropCerts done.2.persistent.trustedCerts host port
          insecureHosts :=
            done.2.persistent.insecureHosts.insert (host, port) } }

def doSetTrusted
    (isDnsName : HostName → Bool) (circumstances : Circumstances)
    (store : CertStore) (cert : CertData) (certificate : X509Certificate) :
    Bool × CertStore :=
  let loaded := store.loadTrustedCerts isDnsName circumstances.load
  if loaded.isTrustedData isDnsName cert.host cert.port cert.data true false
    then (false, loaded)
  else
    (true, loaded.record circumstances
      (setTrustedInXml · cert certificate))

/-- The entry that `SetTrusted` stores. -/
def certFor (info : TlsSessionInfo) (trustAllHostnames : Bool) : CertData :=
  { host := info.host
    trustSans := trustAllHostnames
    port := info.port
    data := info.leaf.rawData }

def setTrusted
    (isDnsName : HostName → Bool) (circumstances : Circumstances)
    (store : CertStore) (info : TlsSessionInfo)
    (permanent trustAllHostnames : Bool) : CertStore :=
  let cert := certFor info trustAllHostnames
  let cleared := store.dropSessionHost cert.host cert.port
  if !permanent then
    { cleared with
      session := { cleared.session with
        trustedCerts := cleared.session.trustedCerts ++ [cert] } }
  else
    let done := cleared.doSetTrusted isDnsName circumstances cert info.leaf
    if !done.1 then done.2
    else
      { done.2 with
        persistent := { done.2.persistent with
          insecureHosts := dropHost done.2.persistent.insecureHosts
            (cert.host, cert.port)
          trustedCerts := done.2.persistent.trustedCerts ++ [cert] } }

def doSetSessionResumptionSupport
    (isDnsName : HostName → Bool) (circumstances : Circumstances)
    (store : CertStore) (host : HostName) (port : ℕ) (secure : Bool) :
    Bool × CertStore :=
  let loaded := store.loadTrustedCerts isDnsName circumstances.load
  let known := loaded.getSessionResumptionSupport isDnsName
    circumstances.again host port
  if known.1 = some secure then (false, known.2)
  else
    (true, known.2.record circumstances
      (setSessionResumptionSupportInXml · host port secure))

def setSessionResumptionSupport
    (isDnsName : HostName → Bool) (circumstances : Circumstances)
    (store : CertStore) (host : HostName) (port : ℕ)
    (secure permanent : Bool) : CertStore :=
  if !permanent then
    { store with
      session := { store.session with
        resumptionSupport :=
          emplace store.session.resumptionSupport (host, port) secure } }
  else
    let done := store.doSetSessionResumptionSupport isDnsName circumstances
      host port secure
    if !done.1 then done.2
    else
      { done.2 with
        persistent := { done.2.persistent with
          resumptionSupport :=
            emplace done.2.persistent.resumptionSupport (host, port) secure }
        session := { done.2.session with
          resumptionSupport := done.2.session.resumptionSupport.filter
            (·.1 != (host, port)) } }

/-- The store of a program that has just started. -/
def fresh (disk : StoredFile) : CertStore :=
  { persistent := .none
    session := .none
    file := ⟨none, none⟩
    disk := disk }

end CertStore

inductive CertStoreInput
  | setTrusted (info : TlsSessionInfo) (permanent trustAllHostnames : Bool)
      (circumstances : Circumstances)
  | setInsecure (host : HostName) (port : ℕ) (permanent : Bool)
      (circumstances : Circumstances)
  | setSessionResumptionSupport (host : HostName) (port : ℕ)
      (secure permanent : Bool) (circumstances : Circumstances)
  /-- Any question that consults the file. -/
  | question (context : LoadContext)
  /-- Someone else changes the file. -/
  | fileChanges (disk : StoredFile)
  /-- The program ends and is started again. -/
  | restart

def certStoreStep (isDnsName : HostName → Bool) (store : CertStore) :
    CertStoreInput → CertStore
  | .setTrusted info permanent trustAllHostnames circumstances =>
      store.setTrusted isDnsName circumstances info permanent
        trustAllHostnames
  | .setInsecure host port permanent circumstances =>
      store.setInsecure isDnsName circumstances host port permanent
  | .setSessionResumptionSupport host port secure permanent circumstances =>
      store.setSessionResumptionSupport isDnsName circumstances host port
        secure permanent
  | .question context => store.loadTrustedCerts isDnsName context
  | .fileChanges disk => { store with disk := disk }
  | .restart => CertStore.fresh store.disk

/-- The runs of the store.  It has no outputs of interest: what it answers is
asked of its states. -/
def certStoreMachine (isDnsName : HostName → Bool) :
    LabelledRuns.Machine CertStore CertStoreInput Empty where
  initial store := ∃ disk, store = CertStore.fresh disk
  step store input := some (certStoreStep isDnsName store input, [])

end TabFtp
