import TabFtp.LabelledRuns
import TabFtp.SiteUrl

/-!
# Protected credentials

With a master password the password of a site is stored encrypted.  `protect`
encrypts it under a public key, after it has decrypted what was encrypted
under another key, and `unprotect` gives it back.
-/

namespace TabFtp

/-- What is used of the library to protect a password. -/
structure ProtectionLibrary (PublicKey PrivateKey : Type) where
  /-- `fz::private_key::pubkey` -/
  pubkey : PrivateKey → PublicKey
  /-- `fz::to_utf8` -/
  toUtf8 : WString → List UInt8
  /-- `fz::to_wstring_from_utf8` -/
  toWstringFromUtf8 : List UInt8 → WString
  /-- `fz::base64_encode` without padding -/
  base64Encode : List UInt8 → List UInt8
  /-- `fz::base64_decode` -/
  base64Decode : List UInt8 → List UInt8
  /-- `fz::encrypt`, which draws random numbers. -/
  encrypt : (random plain : List UInt8) → PublicKey → List UInt8
  /-- `fz::decrypt` -/
  decrypt : List UInt8 → PrivateKey → (authenticated : Bool) → List UInt8

/-- What the library documents: the conversions are inverse to one another,
and encryption succeeds. -/
structure ProtectionLibrary.Documented {PublicKey PrivateKey : Type}
    (lib : ProtectionLibrary PublicKey PrivateKey) : Prop where
  utf8 : ∀ text, lib.toWstringFromUtf8 (lib.toUtf8 text) = text
  utf8Nil : lib.toUtf8 [] = []
  utf8Nul : ∀ text, '\x00' ∉ text → 0 ∉ lib.toUtf8 text
  base64 : ∀ data, lib.base64Decode (lib.base64Encode data) = data
  base64Utf8 : ∀ data,
    lib.toUtf8 (lib.toWstringFromUtf8 (lib.base64Encode data)) =
      lib.base64Encode data
  encrypts : ∀ random plain key, lib.encrypt random plain key ≠ []
  decrypts : ∀ random plain key,
    lib.decrypt (lib.encrypt random plain (lib.pubkey key)) key true = plain

/-- `ProtectedCredentials`; without a key they are not encrypted. -/
structure ProtectedCredentials (PublicKey : Type) extends Credentials where
  encrypted : Option PublicKey

namespace ProtectedCredentials

variable {PublicKey PrivateKey : Type} [DecidableEq PublicKey]
  (lib : ProtectionLibrary PublicKey PrivateKey)

def setPass (creds : ProtectedCredentials PublicKey) (password : WString) :
    ProtectedCredentials PublicKey :=
  { creds with toCredentials := creds.toCredentials.setPass password }

def getPass (creds : ProtectedCredentials PublicKey) : WString :=
  creds.toCredentials.getPass

/-- `do_unprotect`, with the credentials if it succeeds. -/
def doUnprotect (creds : ProtectedCredentials PublicKey)
    (key : Option PrivateKey) : Option (ProtectedCredentials PublicKey) :=
  match key with
  | none => none
  | some key =>
      if some (lib.pubkey key) ≠ creds.encrypted then none
      else
        let cipher := lib.base64Decode (lib.toUtf8 creds.getPass)
        let plain := lib.decrypt cipher key true
        -- compatibility with unauthenticated encryption
        let plain :=
          if plain.isEmpty then lib.decrypt cipher key false else plain
        if plain.length < 16 then none
        else
          let pw := plain.takeWhile (· ≠ 0)
          if (plain.drop (pw.length + 1)).any (· ≠ 0) then none
          else
            let wpw := lib.toWstringFromUtf8 pw
            if wpw.isEmpty && !pw.isEmpty then none
            else some { creds.setPass wpw with encrypted := none }

/-- `unprotect`, with the credentials it leaves. -/
def unprotect (creds : ProtectedCredentials PublicKey)
    (key : Option PrivateKey) (onFailureSetToAsk : Bool) :
    Bool × ProtectedCredentials PublicKey :=
  if creds.encrypted = none then (true, creds)
  else
    match creds.doUnprotect lib key with
    | some plain => (true, plain)
    | none =>
        if onFailureSetToAsk then
          (false,
            { ({ creds with encrypted := none } :
                ProtectedCredentials PublicKey).setPass [] with
              logonType := .ask })
        else (false, creds)

def hideLength (plain : List UInt8) : List UInt8 :=
  if plain.length < 16 then plain ++ List.replicate (16 - plain.length) 0
  else plain

/-- The end of `protect`. -/
def encryptPass (creds : ProtectedCredentials PublicKey)
    (random : List UInt8) (key : PublicKey) :
    ProtectedCredentials PublicKey :=
  let encrypted := lib.encrypt random (hideLength (lib.toUtf8 creds.getPass)) key
  if encrypted.isEmpty then
    { ({ creds with logonType := .ask } :
        ProtectedCredentials PublicKey).setPass [] with
      encrypted := none }
  else
    { creds.setPass (lib.toWstringFromUtf8 (lib.base64Encode encrypted)) with
      encrypted := some key }

/-- `protect`.  The login manager gives the private key for a public one, if
it knows it. -/
def protect (getDecryptor : PublicKey → Option PrivateKey)
    (random : List UInt8) (creds : ProtectedCredentials PublicKey)
    (key : Option PublicKey) : ProtectedCredentials PublicKey :=
  if creds.logonType ≠ .normal ∧ creds.logonType ≠ .account then
    { creds.setPass [] with encrypted := none }
  else
    match key with
    | none => creds
    | some key =>
        match creds.encrypted with
        | none => creds.encryptPass lib random key
        | some old =>
            if old = key then creds
            else
              match getDecryptor old with
              | none => creds
              | some priv =>
                  -- encrypted under a different key
                  let (done, plain) := creds.unprotect lib (some priv) true
                  if done then plain.encryptPass lib random key else plain

end ProtectedCredentials

/-- A call of `protect`. -/
structure ProtectCall (PublicKey PrivateKey : Type) where
  key : Option PublicKey
  getDecryptor : PublicKey → Option PrivateKey
  random : List UInt8

section Runs

variable {PublicKey PrivateKey : Type} [DecidableEq PublicKey]
  (lib : ProtectionLibrary PublicKey PrivateKey)

/-- The runs in which credentials are protected again and again. -/
def protectMachine (creds : ProtectedCredentials PublicKey) :
    LabelledRuns.Machine (ProtectedCredentials PublicKey)
      (ProtectCall PublicKey PrivateKey) Empty where
  initial current := current = creds
  step current call :=
    some (current.protect lib call.getDecryptor call.random call.key, [])

/-- The login manager knows the old key if there is a new one. -/
def KnowsOldKey (creds : ProtectedCredentials PublicKey)
    (call : ProtectCall PublicKey PrivateKey) : Prop :=
  ∀ old key, creds.encrypted = some old → call.key = some key → old ≠ key →
    ∃ priv, call.getDecryptor old = some priv ∧ lib.pubkey priv = old

/-- The last key that is one. -/
def lastKey (calls : List (ProtectCall PublicKey PrivateKey)) :
    Option PublicKey :=
  calls.foldl (fun before call => call.key.or before) none

end Runs

namespace ProtectedCredentials

variable {PublicKey PrivateKey : Type} [DecidableEq PublicKey]
  {lib : ProtectionLibrary PublicKey PrivateKey}
  {creds : ProtectedCredentials PublicKey}

/-! ## Encrypting and decrypting -/

omit [DecidableEq PublicKey] in
theorem setPass_of_stored (htype : creds.logonType ≠ .anonymous)
    (password : WString) :
    creds.setPass password = { creds with password := password } := by
  unfold setPass Credentials.setPass
  rw [if_pos htype]

omit [DecidableEq PublicKey] in
theorem getPass_of_stored (htype : creds.logonType ≠ .anonymous) :
    creds.getPass = creds.password := by
  unfold getPass Credentials.getPass
  rw [if_neg htype]

theorem hideLength_length (plain : List UInt8) :
    16 ≤ (hideLength plain).length := by
  unfold hideLength
  split_ifs with hshort
  · rw [List.length_append, List.length_replicate]
    omega
  · omega

theorem hideLength_eq (plain : List UInt8) :
    ∃ count, hideLength plain = plain ++ List.replicate count 0 := by
  unfold hideLength
  split_ifs
  · exact ⟨_, rfl⟩
  · exact ⟨0, (List.append_nil plain).symm⟩

theorem takeWhile_hideLength {plain : List UInt8} (hnul : 0 ∉ plain) :
    (hideLength plain).takeWhile (· ≠ 0) = plain := by
  rcases hideLength_eq plain with ⟨count, hpadded⟩
  have hplain : ∀ byte ∈ plain, decide (byte ≠ 0) = true := by
    intro byte hmem
    refine decide_eq_true ?_
    intro hzero
    exact hnul (hzero ▸ hmem)
  have hpadding : (List.replicate count (0 : UInt8)).takeWhile (· ≠ 0) = [] := by
    cases count with
    | zero => rfl
    | succ count => rfl
  rw [hpadded, List.takeWhile_append_of_pos hplain, hpadding, List.append_nil]

theorem padding_hideLength (plain : List UInt8) :
    ((hideLength plain).drop (plain.length + 1)).any (· ≠ 0) = false := by
  rcases hideLength_eq plain with ⟨count, hpadded⟩
  have hdrop : (plain ++ List.replicate count (0 : UInt8)).drop
      (plain.length + 1) = List.replicate (count - 1) 0 := by
    rw [List.drop_append, List.drop_eq_nil_of_le (Nat.le_succ _),
      List.nil_append, List.drop_replicate]
    congr 1
    omega
  rw [hpadded, hdrop, List.any_eq_false]
  intro byte hmem
  rw [List.eq_of_mem_replicate hmem]
  decide

section Documented

variable (hdocumented : lib.Documented)
include hdocumented

omit [DecidableEq PublicKey] in
theorem encryptPass_eq (htype : creds.logonType ≠ .anonymous)
    (random : List UInt8) (key : PublicKey) :
    creds.encryptPass lib random key =
      { creds with
        password := lib.toWstringFromUtf8 (lib.base64Encode
          (lib.encrypt random (hideLength (lib.toUtf8 creds.password)) key))
        encrypted := some key } := by
  have hencrypted : (lib.encrypt random
      (hideLength (lib.toUtf8 creds.password)) key).isEmpty = false :=
    List.isEmpty_eq_false_iff.mpr (hdocumented.encrypts random _ key)
  unfold encryptPass
  simp only [getPass_of_stored htype, hencrypted, Bool.false_eq_true, if_false,
    setPass_of_stored htype]

/-- The key that belongs to the public one opens it. -/
theorem unprotect_encryptPass (hplain : creds.encrypted = none)
    (htype : creds.logonType ≠ .anonymous) (hnul : '\x00' ∉ creds.password)
    (random : List UInt8) (priv : PrivateKey) (onFailureSetToAsk : Bool) :
    (creds.encryptPass lib random (lib.pubkey priv)).unprotect lib (some priv)
      onFailureSetToAsk = (true, creds) := by
  have hsealed := encryptPass_eq hdocumented htype random (lib.pubkey priv)
  have hstored : (creds.encryptPass lib random
      (lib.pubkey priv)).logonType ≠ .anonymous := by
    rw [hsealed]
    exact htype
  have hcipher : lib.base64Decode (lib.toUtf8 (creds.encryptPass lib random
      (lib.pubkey priv)).getPass) =
        lib.encrypt random (hideLength (lib.toUtf8 creds.password))
          (lib.pubkey priv) := by
    rw [getPass_of_stored hstored, hsealed]
    simp only
    rw [hdocumented.base64Utf8, hdocumented.base64]
  have hdecrypted := hdocumented.decrypts random
    (hideLength (lib.toUtf8 creds.password)) priv
  have hlength := hideLength_length (lib.toUtf8 creds.password)
  have hne : (hideLength (lib.toUtf8 creds.password)).isEmpty = false := by
    rw [List.isEmpty_eq_false_iff]
    intro hnil
    rw [hnil, List.length_nil] at hlength
    omega
  have hwhole := takeWhile_hideLength (hdocumented.utf8Nul _ hnul)
  have hpadding := padding_hideLength (lib.toUtf8 creds.password)
  have hshown : (creds.password.isEmpty &&
      !(lib.toUtf8 creds.password).isEmpty) = false := by
    cases hpassword : creds.password with
    | nil =>
        rw [hdocumented.utf8Nil]
        rfl
    | cons char rest => rfl
  have hdone : (creds.encryptPass lib random (lib.pubkey priv)).doUnprotect lib
      (some priv) = some creds := by
    unfold doUnprotect
    have hkey : (creds.encryptPass lib random (lib.pubkey priv)).encrypted =
        some (lib.pubkey priv) := by rw [hsealed]
    simp only [hkey, ne_eq, not_true_eq_false, if_false, hcipher, hdecrypted,
      hne, Bool.false_eq_true, Nat.not_lt.mpr hlength]
    simp only [ne_eq] at hwhole hpadding
    simp only [hwhole, hpadding, Bool.false_eq_true, if_false,
      hdocumented.utf8, hshown]
    rw [setPass_of_stored hstored, hsealed, ← hplain]
  unfold unprotect
  rw [hdone, if_neg]
  rw [hsealed]
  exact Option.some_ne_none _

end Documented

/-! ## Protecting again and again -/

inductive Sealed (lib : ProtectionLibrary PublicKey PrivateKey)
    (creds : ProtectedCredentials PublicKey) :
    Option PublicKey → ProtectedCredentials PublicKey → Prop
  | plain : Sealed lib creds none creds
  | encrypted (random : List UInt8) (key : PublicKey) :
      Sealed lib creds (some key) (creds.encryptPass lib random key)

/-- A stored password without a NUL. -/
structure Stored (creds : ProtectedCredentials PublicKey) : Prop where
  plain : creds.encrypted = none
  type : creds.logonType = .normal ∨ creds.logonType = .account
  noNul : '\x00' ∉ creds.password

omit [DecidableEq PublicKey] in
theorem Stored.not_anonymous (hstored : creds.Stored) :
    creds.logonType ≠ .anonymous := by
  intro hanonymous
  rcases hstored.type with htype | htype <;> rw [hanonymous] at htype <;>
    cases htype

variable {current : ProtectedCredentials PublicKey} {key : Option PublicKey}

section Documented

variable (hdocumented : lib.Documented) (hstored : creds.Stored)
include hdocumented hstored

omit [DecidableEq PublicKey] in
theorem Sealed.encrypted_eq (hsealed : Sealed lib creds key current) :
    current.encrypted = key := by
  cases hsealed with
  | plain => exact hstored.plain
  | encrypted random key =>
      rw [encryptPass_eq hdocumented hstored.not_anonymous]

omit [DecidableEq PublicKey] in
theorem Sealed.type_eq (hsealed : Sealed lib creds key current) :
    current.logonType = creds.logonType := by
  cases hsealed with
  | plain => rfl
  | encrypted random key =>
      rw [encryptPass_eq hdocumented hstored.not_anonymous]

theorem Sealed.protect (hsealed : Sealed lib creds key current)
    {call : ProtectCall PublicKey PrivateKey}
    (hknows : KnowsOldKey lib current call) :
    Sealed lib creds (call.key.or key)
      (current.protect lib call.getDecryptor call.random call.key) := by
  have htype := hsealed.type_eq hdocumented hstored
  have hencrypted := hsealed.encrypted_eq hdocumented hstored
  have hkind : ¬ (current.logonType ≠ .normal ∧
      current.logonType ≠ .account) := by
    rw [htype]
    rcases hstored.type with hnormal | haccount
    · exact fun hboth => hboth.1 hnormal
    · exact fun hboth => hboth.2 haccount
  unfold ProtectedCredentials.protect
  rw [if_neg hkind]
  cases hcall : call.key with
  | none =>
      rw [Option.none_or]
      exact hsealed
  | some new =>
      rw [Option.some_or, hencrypted]
      cases hsealed with
      | plain => exact .encrypted call.random new
      | encrypted random old =>
          simp only
          by_cases hsame : old = new
          · rw [if_pos hsame, ← hsame]
            exact .encrypted random old
          · rw [if_neg hsame]
            rcases hknows old new hencrypted hcall hsame with
              ⟨priv, hpriv, hpublic⟩
            have hplain := unprotect_encryptPass hdocumented hstored.plain
              hstored.not_anonymous hstored.noNul random priv true
            rw [hpublic] at hplain
            simp only [hpriv, hplain, if_true]
            exact .encrypted call.random new

/-- In every run the password is sealed by the last key. -/
theorem reaches_sealed {calls : List (ProtectCall PublicKey PrivateKey)}
    {outputs : List Empty}
    (hreach : (protectMachine lib creds).ReachesWithin (KnowsOldKey lib) calls
      outputs current) :
    Sealed lib creds (lastKey calls) current := by
  refine hreach.history
    (fun calls _ current => Sealed lib creds (lastKey calls) current) ?_ ?_
  · intro initial hinitial
    rw [show initial = creds from hinitial]
    exact .plain
  · intro calls _ before call following answer hbefore hknows hstep
    have hfollowing : before.protect lib call.getDecryptor call.random
        call.key = following := congrArg Prod.fst (Option.some.inj hstep)
    have hlast : lastKey (calls ++ [call]) = call.key.or (lastKey calls) := by
      unfold lastKey
      rw [List.foldl_append]
      rfl
    rw [← hfollowing, hlast]
    exact hbefore.protect hdocumented hstored hknows

end Documented

theorem unprotect_false (htype : current.logonType ≠ .anonymous)
    {priv : Option PrivateKey} {onFailureSetToAsk : Bool}
    (hfails : (current.unprotect lib priv onFailureSetToAsk).1 = false) :
    (current.unprotect lib priv onFailureSetToAsk).2 = current ∨
      (current.unprotect lib priv onFailureSetToAsk).2.logonType = .ask ∧
        (current.unprotect lib priv onFailureSetToAsk).2.password = [] ∧
        (current.unprotect lib priv onFailureSetToAsk).2.encrypted = none := by
  unfold unprotect at hfails ⊢
  by_cases hplain : current.encrypted = none
  · rw [if_pos hplain] at hfails
    cases hfails
  · rw [if_neg hplain] at hfails ⊢
    cases hdone : current.doUnprotect lib priv with
    | some plain =>
        rw [hdone] at hfails
        cases hfails
    | none =>
        cases onFailureSetToAsk with
        | false => exact Or.inl rfl
        | true =>
            right
            have hcleared : ({ current with encrypted := none } :
                ProtectedCredentials PublicKey).logonType ≠ .anonymous := htype
            simp only [if_true]
            rw [setPass_of_stored hcleared]
            exact ⟨trivial, rfl, rfl⟩

/-- Protected credentials are given back by the private key of the last key,
whatever keys were used before it. -/
theorem credentials_round_trip (hdocumented : lib.Documented)
    (hstored : creds.Stored)
    {calls : List (ProtectCall PublicKey PrivateKey)} {outputs : List Empty}
    (hreach : (protectMachine lib creds).ReachesWithin (KnowsOldKey lib) calls
      outputs current) :
    (∀ priv onFailureSetToAsk,
        (∀ key, lastKey calls = some key → lib.pubkey priv = key) →
        current.unprotect lib (some priv) onFailureSetToAsk = (true, creds)) ∧
      (∀ getDecryptor random, current.encrypted ≠ none →
        current.protect lib getDecryptor random current.encrypted =
          current) ∧
      ∀ priv onFailureSetToAsk,
        (current.unprotect lib priv onFailureSetToAsk).1 = false →
        (current.unprotect lib priv onFailureSetToAsk).2 = current ∨
          (current.unprotect lib priv onFailureSetToAsk).2.logonType = .ask ∧
            (current.unprotect lib priv onFailureSetToAsk).2.password = [] ∧
            (current.unprotect lib priv onFailureSetToAsk).2.encrypted =
              none := by
  have hsealed := reaches_sealed hdocumented hstored hreach
  have htype : current.logonType ≠ .anonymous := by
    rw [hsealed.type_eq hdocumented hstored]
    exact hstored.not_anonymous
  refine ⟨?_, ?_, ?_⟩
  · intro priv onFailureSetToAsk hkey
    cases hlast : lastKey calls with
    | none =>
        rw [hlast] at hsealed
        cases hsealed with
        | plain =>
            unfold unprotect
            rw [if_pos hstored.plain]
    | some key =>
        rw [hlast] at hsealed
        cases hsealed with
        | encrypted random =>
            rw [← hkey key hlast]
            exact unprotect_encryptPass hdocumented hstored.plain
              hstored.not_anonymous hstored.noNul random priv onFailureSetToAsk
  · intro getDecryptor random hencrypted
    cases hkey : current.encrypted with
    | none => exact absurd hkey hencrypted
    | some key =>
        unfold ProtectedCredentials.protect
        split_ifs with hkind
        · rw [hsealed.type_eq hdocumented hstored] at hkind
          rcases hstored.type with hnormal | haccount
          · exact absurd hnormal hkind.1
          · exact absurd haccount hkind.2
        · simp only [hkey, if_true]
  · intro priv onFailureSetToAsk hfails
    exact unprotect_false htype hfails

end ProtectedCredentials

/-! ## A library with a cipher that hides nothing -/

namespace PlainLibrary

def toUtf8 (text : WString) : List UInt8 :=
  text.flatMap String.utf8EncodeChar

def toWstringFromUtf8 (bytes : List UInt8) : WString :=
  match bytes.toByteArray.utf8Decode? with
  | some chars => chars.toList
  | none => []

def base64Digit (index : ℕ) : UInt8 :=
  UInt8.ofNat <|
    if index < 26 then index + 65
    else if index < 52 then index + 71
    else if index < 62 then index - 4
    else if index = 62 then 43
    else 47

def base64Index (digit : UInt8) : ℕ :=
  if 65 ≤ digit.toNat ∧ digit.toNat ≤ 90 then digit.toNat - 65
  else if 97 ≤ digit.toNat ∧ digit.toNat ≤ 122 then digit.toNat - 71
  else if 48 ≤ digit.toNat ∧ digit.toNat ≤ 57 then digit.toNat + 4
  else if digit.toNat = 43 then 62
  else 63

def base64Encode : List UInt8 → List UInt8
  | [] => []
  | [a] => [base64Digit (a.toNat / 4), base64Digit (a.toNat % 4 * 16)]
  | [a, b] =>
      [base64Digit (a.toNat / 4),
        base64Digit (a.toNat % 4 * 16 + b.toNat / 16),
        base64Digit (b.toNat % 16 * 4)]
  | a :: b :: c :: rest =>
      base64Digit (a.toNat / 4) ::
        base64Digit (a.toNat % 4 * 16 + b.toNat / 16) ::
        base64Digit (b.toNat % 16 * 4 + c.toNat / 64) ::
        base64Digit (c.toNat % 64) :: base64Encode rest

def base64Decode : List UInt8 → List UInt8
  | w :: x :: y :: z :: rest =>
      UInt8.ofNat (base64Index w * 4 + base64Index x / 16) ::
        UInt8.ofNat (base64Index x % 16 * 16 + base64Index y / 4) ::
        UInt8.ofNat (base64Index y % 4 * 64 + base64Index z) ::
        base64Decode rest
  | [w, x, y] =>
      [UInt8.ofNat (base64Index w * 4 + base64Index x / 16),
        UInt8.ofNat (base64Index x % 16 * 16 + base64Index y / 4)]
  | [w, x] => [UInt8.ofNat (base64Index w * 4 + base64Index x / 16)]
  | _ => []

theorem fromUtf8_toUtf8 (text : WString) :
    toWstringFromUtf8 (toUtf8 text) = text := by
  have hencoded : (toUtf8 text).toByteArray = text.utf8Encode := rfl
  unfold toWstringFromUtf8
  rw [hencoded, List.utf8Decode?_utf8Encode]

theorem ofNat_ne_zero {number : ℕ} (hne : number % 256 ≠ 0) :
    (0 : UInt8) ≠ UInt8.ofNat number := by
  intro hzero
  have hnumber := congrArg UInt8.toNat hzero
  rw [UInt8.toNat_ofNat'] at hnumber
  exact hne hnumber.symm

theorem zero_not_mem_toUtf8 {text : WString} (hnul : '\x00' ∉ text) :
    0 ∉ toUtf8 text := by
  intro hmem
  rcases List.mem_flatMap.mp hmem with ⟨char, hchar, hzero⟩
  have hvalue : char.val.toNat ≠ 0 := by
    intro hvalue
    have hsame : char = '\x00' := Char.ext (UInt32.toNat_inj.mp hvalue)
    exact hnul (hsame ▸ hchar)
  unfold String.utf8EncodeChar at hzero
  simp only at hzero
  split_ifs at hzero
  · rw [List.mem_singleton] at hzero
    exact ofNat_ne_zero (by omega) hzero
  · simp only [List.mem_cons, List.not_mem_nil, or_false] at hzero
    rcases hzero with hzero | hzero <;>
      exact ofNat_ne_zero (by omega) hzero
  · simp only [List.mem_cons, List.not_mem_nil, or_false] at hzero
    rcases hzero with hzero | hzero | hzero <;>
      exact ofNat_ne_zero (by omega) hzero
  · simp only [List.mem_cons, List.not_mem_nil, or_false] at hzero
    rcases hzero with hzero | hzero | hzero | hzero <;>
      exact ofNat_ne_zero (by omega) hzero

theorem toUtf8_ascii {bytes : List UInt8}
    (hascii : ∀ byte ∈ bytes, byte.toNat < 128) :
    toUtf8 (bytes.map fun byte => Char.ofNat byte.toNat) = bytes := by
  induction bytes with
  | nil => rfl
  | cons byte bytes ih =>
      have hbyte := hascii byte List.mem_cons_self
      have hrest := ih fun other hmem =>
        hascii other (List.mem_cons_of_mem byte hmem)
      have hvalue : (Char.ofNat byte.toNat).toNat = byte.toNat := by
        have hvalid : byte.toNat.isValidChar := Or.inl (by omega)
        unfold Char.ofNat
        rw [dif_pos hvalid]
        rfl
      have hsingle : String.utf8EncodeChar (Char.ofNat byte.toNat) =
          [byte] := by
        unfold String.utf8EncodeChar
        have hval : (Char.ofNat byte.toNat).val.toNat = byte.toNat := hvalue
        simp only [hval]
        rw [if_pos (by omega), UInt8.ofNat_toNat]
      unfold toUtf8 at hrest ⊢
      rw [List.map_cons, List.flatMap_cons, hsingle, hrest]
      rfl

theorem base64Index_digit :
    ∀ index < 64, base64Index (base64Digit index) = index := by
  decide

theorem base64Digit_ascii (index : ℕ) : (base64Digit index).toNat < 128 := by
  unfold base64Digit
  rw [UInt8.toNat_ofNat']
  split_ifs <;> omega

theorem base64Decode_encode (data : List UInt8) :
    base64Decode (base64Encode data) = data := by
  fun_induction base64Encode data with
  | case1 => rfl
  | case2 a =>
      have ha := a.toNat_lt
      rw [base64Decode, base64Index_digit _ (by omega),
        base64Index_digit _ (by omega)]
      have hbyte : a.toNat / 4 * 4 + a.toNat % 4 * 16 / 16 = a.toNat := by
        omega
      rw [hbyte, UInt8.ofNat_toNat]
  | case3 a b =>
      have ha := a.toNat_lt
      have hb := b.toNat_lt
      rw [base64Decode, base64Index_digit _ (by omega),
        base64Index_digit _ (by omega), base64Index_digit _ (by omega)]
      have hfirst : a.toNat / 4 * 4 + (a.toNat % 4 * 16 + b.toNat / 16) / 16 =
          a.toNat := by omega
      have hsecond : (a.toNat % 4 * 16 + b.toNat / 16) % 16 * 16 +
          b.toNat % 16 * 4 / 4 = b.toNat := by omega
      rw [hfirst, hsecond, UInt8.ofNat_toNat, UInt8.ofNat_toNat]
  | case4 a b c rest ih =>
      have ha := a.toNat_lt
      have hb := b.toNat_lt
      have hc := c.toNat_lt
      rw [base64Decode, base64Index_digit _ (by omega),
        base64Index_digit _ (by omega), base64Index_digit _ (by omega),
        base64Index_digit _ (by omega), ih]
      have hfirst : a.toNat / 4 * 4 + (a.toNat % 4 * 16 + b.toNat / 16) / 16 =
          a.toNat := by omega
      have hsecond : (a.toNat % 4 * 16 + b.toNat / 16) % 16 * 16 +
          (b.toNat % 16 * 4 + c.toNat / 64) / 4 = b.toNat := by omega
      have hthird : (b.toNat % 16 * 4 + c.toNat / 64) % 4 * 64 +
          c.toNat % 64 = c.toNat := by omega
      rw [hfirst, hsecond, hthird, UInt8.ofNat_toNat, UInt8.ofNat_toNat,
        UInt8.ofNat_toNat]

theorem base64Encode_ascii (data : List UInt8) :
    ∀ byte ∈ base64Encode data, byte.toNat < 128 := by
  fun_induction base64Encode data with
  | case1 => exact nofun
  | case2 a =>
      intro byte hmem
      simp only [List.mem_cons, List.not_mem_nil, or_false] at hmem
      rcases hmem with rfl | rfl <;> exact base64Digit_ascii _
  | case3 a b =>
      intro byte hmem
      simp only [List.mem_cons, List.not_mem_nil, or_false] at hmem
      rcases hmem with rfl | rfl | rfl <;> exact base64Digit_ascii _
  | case4 a b c rest ih =>
      intro byte hmem
      simp only [List.mem_cons] at hmem
      rcases hmem with rfl | rfl | rfl | rfl | hrest
      · exact base64Digit_ascii _
      · exact base64Digit_ascii _
      · exact base64Digit_ascii _
      · exact base64Digit_ascii _
      · exact ih byte hrest

/-- A private key is one more than its public key, which is put in front of
the text. -/
def library : ProtectionLibrary ℕ ℕ where
  pubkey key := key + 1
  toUtf8 := toUtf8
  toWstringFromUtf8 := toWstringFromUtf8
  base64Encode := base64Encode
  base64Decode := base64Decode
  encrypt _ plain key := UInt8.ofNat key :: plain
  decrypt cipher key _ :=
    if cipher.head? = some (UInt8.ofNat (key + 1)) then cipher.tail else []

theorem library_documented : library.Documented where
  utf8 := fromUtf8_toUtf8
  utf8Nil := rfl
  utf8Nul _ := zero_not_mem_toUtf8
  base64 := base64Decode_encode
  base64Utf8 data := by
    have htext : toUtf8 ((base64Encode data).map fun byte =>
        Char.ofNat byte.toNat) = base64Encode data :=
      toUtf8_ascii (base64Encode_ascii data)
    have hread := fromUtf8_toUtf8 ((base64Encode data).map fun byte =>
      Char.ofNat byte.toNat)
    rw [htext] at hread
    change toUtf8 (toWstringFromUtf8 (base64Encode data)) = base64Encode data
    rw [hread, htext]
  encrypts _ _ _ := List.cons_ne_nil _ _
  decrypts _ _ _ := if_pos rfl

end PlainLibrary

/-- A password that is encrypted under one key and then under another. -/
theorem ProtectedCredentials.credentials_round_trip_two_keys :
    ∃ current, (protectMachine PlainLibrary.library
        ⟨⟨.normal, "secret".toList, []⟩, none⟩).ReachesWithin
          (KnowsOldKey PlainLibrary.library)
          [⟨some 5, fun _ => none, []⟩, ⟨some 8, fun _ => some 4, []⟩] []
          current ∧
      current.encrypted = some 8 ∧
      current.unprotect PlainLibrary.library (some 7) false =
        (true, ⟨⟨.normal, "secret".toList, []⟩, none⟩) := by
  let creds : ProtectedCredentials ℕ := ⟨⟨.normal, "secret".toList, []⟩, none⟩
  let first : ProtectCall ℕ ℕ := ⟨some 5, fun _ => none, []⟩
  let second : ProtectCall ℕ ℕ := ⟨some 8, fun _ => some 4, []⟩
  have hstored : creds.Stored := ⟨rfl, Or.inl rfl, by decide⟩
  have hfirst : KnowsOldKey PlainLibrary.library creds first := by
    intro old key hencrypted
    cases hencrypted
  have hstart : (protectMachine PlainLibrary.library creds).ReachesWithin
      (KnowsOldKey PlainLibrary.library) [] [] creds := .start rfl
  have honce := hstart.next hfirst rfl
  have hsealed := reaches_sealed PlainLibrary.library_documented hstored honce
  have hold := hsealed.encrypted_eq PlainLibrary.library_documented hstored
  have hsecond : KnowsOldKey PlainLibrary.library
      (creds.protect PlainLibrary.library first.getDecryptor first.random
        first.key) second := by
    intro old key hencrypted _ _
    rw [hold] at hencrypted
    exact ⟨4, rfl, Option.some.inj hencrypted⟩
  have htwice := honce.next hsecond rfl
  have hlast := (reaches_sealed PlainLibrary.library_documented hstored
    htwice).encrypted_eq PlainLibrary.library_documented hstored
  have htrip := credentials_round_trip PlainLibrary.library_documented hstored
    htwice
  refine ⟨_, htwice, hlast, htrip.1 7 false ?_⟩
  intro key hkey
  exact Option.some.inj hkey

end TabFtp
