import TabFtp.FtpRawTransfer
import TabFtp.DelimitedText
import Mathlib.Data.List.Basic
import Mathlib.Data.List.TakeWhile

/-!
# The reply to PASV

The address of a passive reply stands between brackets or blanks somewhere
behind the code.  The scan goes from one opening character to the next and
takes the first address that is well formed.
-/

namespace TabFtp

namespace PasvReply

/-! ## The scan -/

/-- `find_first_of`, with a test in place of the set of characters. -/
def findFirst (isWanted : Char → Bool) (text : WString) (start : ℕ) :
    Option ℕ :=
  let pos := start + (text.drop start).findIdx isWanted
  if pos < text.length then some pos else none

def isOpening (char : Char) : Bool :=
  char == ' ' || char == '(' || char == '[' || char == '{' || char == '<'

/-- The characters `0123456789,`. -/
def isAddressChar (char : Char) : Bool :=
  char.isDigit || char == ','

/-- The `switch` over the opening character; a text that ends has no closing
character. -/
def isClosed (opening : Char) (closing : Option Char) : Bool :=
  match opening with
  | ' ' => closing == none || closing == some ' '
  | '(' => closing == some ')'
  | '{' => closing == some '}'
  | '[' => closing == some ']'
  | '<' => closing == some '>'
  | _ => false

def number (token : WString) : Option ℕ :=
  if token.isEmpty || decide (3 < token.length) then none
  else
    let num := Nat.ofDigitChars 10 token 0
    if 255 < num then none else some num

def numbers : List WString → Option (List ℕ)
  | [] => some []
  | token :: tokens =>
      match number token with
      | none => none
      | some num => (numbers tokens).map fun nums => num :: nums

def addressAt (r : WString) (pos : ℕ) : WString :=
  match findFirst (fun char => !isAddressChar char) r (pos + 1) with
  | none => r.drop (pos + 1)
  | some stop => (r.drop (pos + 1)).take (stop - pos - 1)

def closingAt (r : WString) (pos : ℕ) : Option Char :=
  (findFirst (fun char => !isAddressChar char) r (pos + 1)).bind
    fun stop => r[stop]?

/-- The body of the loop, which goes on without a result. -/
def candidate (r : WString) (pos : ℕ) : Option (List ℕ) :=
  match r[pos]? with
  | none => none
  | some opening =>
      if isClosed opening (closingAt r pos) then
        let tokens := (addressAt r pos).splitOn ','
        if tokens.length ≠ 6 then none else numbers tokens
      else none

theorem findFirst_bounds {isWanted : Char → Bool} {text : WString}
    {start pos : ℕ} (hfind : findFirst isWanted text start = some pos) :
    start ≤ pos ∧ pos < text.length := by
  unfold findFirst at hfind
  dsimp only at hfind
  split_ifs at hfind with hlt
  have hpos := Option.some.inj hfind
  omega

def scan (r : WString) (pos : ℕ) : Option (List ℕ) :=
  match _hfind : findFirst isOpening r (pos + 1) with
  | none => none
  | some next =>
      match candidate r next with
      | some nums => some nums
      | none => scan r next
termination_by r.length - pos
decreasing_by
  have hbounds := findFirst_bounds _hfind
  omega

def hostText (nums : List ℕ) : WString :=
  ['.'].intercalate ((nums.take 4).map (Nat.toDigits 10))

def portNumber (nums : List ℕ) : ℕ :=
  nums.getD 4 0 * 256 + nums.getD 5 0

/-- The part of `ParsePasvResponse` before the address is substituted. -/
def parseAddress (r : WString) : Option (WString × ℕ) :=
  (scan r 2).map fun nums => (hostText nums, portNumber nums)

/-! ## Places of addresses -/

def Encloses (opening : Char) (closing : Option Char) : Prop :=
  (opening = ' ' ∧ (closing = none ∨ closing = some ' ')) ∨
    (opening = '(' ∧ closing = some ')') ∨
    (opening = '[' ∧ closing = some ']') ∨
    (opening = '{' ∧ closing = some '}') ∨
    (opening = '<' ∧ closing = some '>')

structure IsNumber (field : WString) : Prop where
  nonempty : field ≠ []
  length : field.length ≤ 3
  digits : ∀ char ∈ field, char.isDigit = true
  value : Nat.ofDigitChars 10 field 0 ≤ 255

/-- At the index a character opens a maximal run of digits and commas, which
is closed by its counterpart and has six numbers. -/
def Place (r : WString) (i : ℕ) (nums : List ℕ) : Prop :=
  3 ≤ i ∧ ∃ opening run rest fields,
    r.drop i = opening :: (run ++ rest) ∧
    (∀ char ∈ run, isAddressChar char = true) ∧
    (∀ char, rest.head? = some char → isAddressChar char = false) ∧
    Encloses opening rest.head? ∧
    run = [','].intercalate fields ∧ fields.length = 6 ∧
    (∀ field ∈ fields, IsNumber field) ∧
    nums = fields.map fun field => Nat.ofDigitChars 10 field 0

variable {r : WString} {pos : ℕ} {nums : List ℕ}

theorem closed_iff (opening : Char) (closing : Option Char) :
    isClosed opening closing = true ↔ Encloses opening closing := by
  unfold isClosed Encloses
  split <;> simp_all

theorem addressAt_eq (r : WString) (pos : ℕ) :
    addressAt r pos = (r.drop (pos + 1)).takeWhile isAddressChar := by
  rw [List.takeWhile_eq_take_findIdx_not]
  unfold addressAt findFirst
  dsimp only
  split_ifs with hlt
  · dsimp only
    congr 1
    omega
  · symm
    apply List.take_of_length_le
    rw [List.length_drop]
    omega

theorem closingAt_eq (r : WString) (pos : ℕ) :
    closingAt r pos =
      ((r.drop (pos + 1)).dropWhile isAddressChar).head? := by
  rw [List.dropWhile_eq_drop_findIdx_not, List.head?_drop,
    List.getElem?_drop]
  unfold closingAt findFirst
  dsimp only
  split_ifs with hlt
  · rfl
  · symm
    apply List.getElem?_eq_none
    omega

theorem run_unique {text run rest : WString} (hsplit : text = run ++ rest)
    (hrun : ∀ char ∈ run, isAddressChar char = true)
    (hrest : ∀ char, rest.head? = some char → isAddressChar char = false) :
    text.takeWhile isAddressChar = run ∧
      text.dropWhile isAddressChar = rest := by
  have hstop : rest.takeWhile isAddressChar = [] ∧
      rest.dropWhile isAddressChar = rest := by
    cases rest with
    | nil => exact ⟨rfl, rfl⟩
    | cons char rest =>
        have hchar := hrest char rfl
        simp [hchar]
  rw [hsplit, List.takeWhile_append_of_pos hrun,
    List.dropWhile_append_of_pos hrun, hstop.1, hstop.2]
  exact ⟨List.append_nil run, rfl⟩

theorem number_iff {token : WString} {num : ℕ}
    (hdigits : ∀ char ∈ token, char.isDigit = true) :
    number token = some num ↔
      IsNumber token ∧ num = Nat.ofDigitChars 10 token 0 := by
  unfold number
  dsimp only
  split_ifs with hlength hvalue
  · constructor
    · intro hfalse
      cases hfalse
    · rintro ⟨hnumber, _⟩
      have hnonempty := hnumber.nonempty
      have hle := hnumber.length
      simp only [Bool.or_eq_true, List.isEmpty_iff, decide_eq_true_eq]
        at hlength
      rcases hlength with hempty | hlength
      · exact absurd hempty hnonempty
      · omega
  · constructor
    · intro hfalse
      cases hfalse
    · rintro ⟨hnumber, _⟩
      have hle := hnumber.value
      omega
  · simp only [Bool.or_eq_true, List.isEmpty_iff, decide_eq_true_eq, not_or]
      at hlength
    have hnumber : IsNumber token :=
      ⟨hlength.1, by omega, hdigits, by omega⟩
    rw [Option.some.injEq]
    constructor
    · intro hnum
      exact ⟨hnumber, hnum.symm⟩
    · intro hnum
      exact hnum.2.symm

theorem numbers_iff {tokens : List WString} {nums : List ℕ}
    (hdigits : ∀ token ∈ tokens, ∀ char ∈ token, char.isDigit = true) :
    numbers tokens = some nums ↔
      (∀ token ∈ tokens, IsNumber token) ∧
        nums = tokens.map fun token => Nat.ofDigitChars 10 token 0 := by
  induction tokens generalizing nums with
  | nil => simp [numbers, eq_comm]
  | cons token tokens ih =>
      have hfirst := hdigits token List.mem_cons_self
      have hrest : ∀ other ∈ tokens, ∀ char ∈ other, char.isDigit = true :=
        fun other hother => hdigits other (List.mem_cons_of_mem _ hother)
      unfold numbers
      rw [List.forall_mem_cons, List.map_cons]
      cases hnumber : number token with
      | none =>
          have hnot : ¬IsNumber token := by
            intro hnumeric
            have hsome := (number_iff hfirst).mpr ⟨hnumeric, rfl⟩
            rw [hnumber] at hsome
            cases hsome
          simp [hnot]
      | some num =>
          rcases (number_iff hfirst).mp hnumber with ⟨hnumeric, hvalue⟩
          dsimp only
          rw [Option.map_eq_some_iff]
          constructor
          · rintro ⟨others, hothers, rfl⟩
            rcases (ih hrest).mp hothers with ⟨hall, hvalues⟩
            exact ⟨⟨hnumeric, hall⟩, by rw [hvalue, hvalues]⟩
          · rintro ⟨⟨_, hall⟩, hvalues⟩
            refine ⟨_, (ih hrest).mpr ⟨hall, rfl⟩, ?_⟩
            rw [hvalues, hvalue]

theorem splitOn_digits {run : WString}
    (hrun : ∀ char ∈ run, isAddressChar char = true) :
    ∀ token ∈ run.splitOn ',', ∀ char ∈ token, char.isDigit = true := by
  intro token htoken char hchar
  rcases DelimitedText.mem_splitOn htoken with ⟨hfree, hmem⟩
  have haddress := hrun char (hmem char hchar)
  have hcomma : char ≠ ',' := by
    rintro rfl
    exact hfree hchar
  simpa [isAddressChar, hcomma] using haddress

theorem drop_of_getElem? {opening : Char} (hopening : r[pos]? = some opening) :
    r.drop pos = opening :: r.drop (pos + 1) := by
  rcases List.getElem?_eq_some_iff.mp hopening with ⟨hlt, hget⟩
  rw [List.drop_eq_getElem_cons hlt, hget]

theorem candidate_iff (hpos : 3 ≤ pos) :
    candidate r pos = some nums ↔ Place r pos nums := by
  constructor
  · intro hcandidate
    unfold candidate at hcandidate
    cases hopening : r[pos]? with
    | none =>
        rw [hopening] at hcandidate
        cases hcandidate
    | some opening =>
        rw [hopening] at hcandidate
        dsimp only at hcandidate
        by_cases hclosed : isClosed opening (closingAt r pos) = true
        · rw [if_pos hclosed] at hcandidate
          by_cases hsix : ((addressAt r pos).splitOn ',').length = 6
          · rw [if_neg (not_not.mpr hsix)] at hcandidate
            have hrun : ∀ char ∈ addressAt r pos,
                isAddressChar char = true := by
              rw [addressAt_eq]
              intro char hchar
              exact List.mem_takeWhile_imp hchar
            have hdigits := splitOn_digits hrun
            rcases (numbers_iff hdigits).mp hcandidate with ⟨hall, hnums⟩
            refine ⟨hpos, opening, addressAt r pos,
              (r.drop (pos + 1)).dropWhile isAddressChar,
              (addressAt r pos).splitOn ',', ?_, hrun, ?_, ?_, ?_, hsix,
              hall, hnums⟩
            · rw [addressAt_eq, List.takeWhile_append_dropWhile]
              exact drop_of_getElem? hopening
            · intro char hchar
              have hnot := List.head?_dropWhile_not isAddressChar
                (r.drop (pos + 1))
              rw [hchar] at hnot
              simpa using hnot
            · rw [← closingAt_eq]
              exact (closed_iff opening _).mp hclosed
            · exact (List.intercalate_splitOn ',').symm
          · rw [if_pos hsix] at hcandidate
            cases hcandidate
        · rw [if_neg hclosed] at hcandidate
          cases hcandidate
  · rintro ⟨_, opening, run, rest, fields, hdrop, hrun, hrest, hencloses,
      hfields, hsix, hall, hnums⟩
    have htail : r.drop (pos + 1) = run ++ rest := by
      rw [← List.tail_drop, hdrop, List.tail_cons]
    have hopening : r[pos]? = some opening := by
      rw [← List.head?_drop, hdrop, List.head?_cons]
    have haddress : addressAt r pos = run := by
      rw [addressAt_eq]
      exact (run_unique htail hrun hrest).1
    have hclosing : closingAt r pos = rest.head? := by
      rw [closingAt_eq, (run_unique htail hrun hrest).2]
    have hne : fields ≠ [] := by
      intro hempty
      rw [hempty] at hsix
      cases hsix
    have hseparate : ∀ field ∈ fields, ',' ∉ field := by
      intro field hfield hcomma
      have hdigit := (hall field hfield).digits ',' hcomma
      revert hdigit
      decide
    have hsplit : run.splitOn ',' = fields := by
      rw [hfields]
      exact List.splitOn_intercalate ',' hseparate hne
    have hdigits : ∀ field ∈ fields, ∀ char ∈ field,
        char.isDigit = true :=
      fun field hfield => (hall field hfield).digits
    unfold candidate
    rw [hopening]
    dsimp only
    rw [haddress, hclosing, if_pos ((closed_iff opening _).mpr hencloses),
      hsplit, if_neg (not_not.mpr hsix)]
    exact (numbers_iff hdigits).mpr ⟨hall, hnums⟩

/-! ## The first place -/

theorem findFirst_before {isWanted : Char → Bool} {text : WString}
    {start stop : ℕ} (hstop : stop ≤ start + (text.drop start).findIdx isWanted)
    {j : ℕ} (hstart : start ≤ j) (hlt : j < stop) {char : Char}
    (hchar : text[j]? = some char) : isWanted char = false := by
  rcases List.getElem?_eq_some_iff.mp hchar with ⟨hlength, hget⟩
  have hindex : j - start < (text.drop start).findIdx isWanted := by omega
  have hnot := List.not_of_lt_findIdx hindex
  rw [List.getElem_drop] at hnot
  have hsame : start + (j - start) = j := by omega
  simp only [hsame, hget] at hnot
  simpa using hnot

theorem candidate_opening {j : ℕ} (hcandidate : candidate r j ≠ none) :
    ∃ opening, r[j]? = some opening ∧ isOpening opening = true := by
  unfold candidate at hcandidate
  cases hopening : r[j]? with
  | none =>
      rw [hopening] at hcandidate
      exact absurd rfl hcandidate
  | some opening =>
      rw [hopening] at hcandidate
      dsimp only at hcandidate
      by_cases hclosed : isClosed opening (closingAt r j) = true
      · refine ⟨opening, rfl, ?_⟩
        rcases (closed_iff opening _).mp hclosed with
          ⟨rfl, _⟩ | ⟨rfl, _⟩ | ⟨rfl, _⟩ | ⟨rfl, _⟩ | ⟨rfl, _⟩ <;> rfl
      · rw [if_neg hclosed] at hcandidate
        exact absurd rfl hcandidate

theorem candidate_skipped {stop : ℕ}
    (hstop : stop ≤ pos + 1 + (r.drop (pos + 1)).findIdx isOpening)
    {j : ℕ} (hpos : pos < j) (hlt : j < stop) : candidate r j = none := by
  by_contra hcandidate
  rcases candidate_opening hcandidate with ⟨opening, hget, hopening⟩
  have hnot := findFirst_before hstop hpos hlt hget
  rw [hopening] at hnot
  cases hnot

theorem no_candidate_left (hfind : findFirst isOpening r (pos + 1) = none)
    {i : ℕ} (hi : pos < i) : candidate r i = none := by
  unfold findFirst at hfind
  dsimp only at hfind
  split_ifs at hfind with hlt
  by_cases hlength : i < r.length
  · exact candidate_skipped (by omega) hi hlength
  · unfold candidate
    rw [List.getElem?_eq_none (by omega)]

theorem no_candidate_before {next : ℕ}
    (hfind : findFirst isOpening r (pos + 1) = some next) {i : ℕ}
    (hi : pos < i) (hlt : i < next) : candidate r i = none := by
  unfold findFirst at hfind
  dsimp only at hfind
  split_ifs at hfind with hbound
  have hnext := Option.some.inj hfind
  exact candidate_skipped (by omega) hi hlt

theorem scan_none (hscan : scan r pos = none) :
    ∀ i, pos < i → candidate r i = none := by
  induction pos using scan.induct r with
  | case1 pos hfind =>
      intro i hi
      exact no_candidate_left hfind hi
  | case2 pos next hfind found hfound =>
      rw [scan, hfind] at hscan
      simp only [hfound] at hscan
      cases hscan
  | case3 pos next hfind hnone ih =>
      intro i hi
      rw [scan, hfind] at hscan
      simp only [hnone] at hscan
      rcases Nat.lt_trichotomy i next with hlt | rfl | hgt
      · exact no_candidate_before hfind hi hlt
      · exact hnone
      · exact ih hscan i hgt

theorem scan_some (hscan : scan r pos = some nums) :
    ∃ i, pos < i ∧ candidate r i = some nums ∧
      ∀ j, pos < j → j < i → candidate r j = none := by
  induction pos using scan.induct r with
  | case1 pos hfind =>
      rw [scan, hfind] at hscan
      cases hscan
  | case2 pos next hfind found hfound =>
      rw [scan, hfind] at hscan
      simp only [hfound] at hscan
      have hbounds := findFirst_bounds hfind
      refine ⟨next, by omega, hfound.trans hscan, ?_⟩
      intro j hj hlt
      exact no_candidate_before hfind hj hlt
  | case3 pos next hfind hnone ih =>
      rw [scan, hfind] at hscan
      simp only [hnone] at hscan
      have hbounds := findFirst_bounds hfind
      rcases ih hscan with ⟨i, hi, hnums, hbefore⟩
      refine ⟨i, by omega, hnums, ?_⟩
      intro j hj hlt
      rcases Nat.lt_trichotomy j next with hless | rfl | hgt
      · exact no_candidate_before hfind hj hless
      · exact hnone
      · exact hbefore j hgt hlt

/-- The first place of an address. -/
def FirstPlace (r : WString) (i : ℕ) (nums : List ℕ) : Prop :=
  Place r i nums ∧ ∀ j, j < i → ∀ others, ¬Place r j others

theorem FirstPlace.scan_eq {i : ℕ} (hfirst : FirstPlace r i nums) :
    scan r 2 = some nums := by
  have hat := (candidate_iff hfirst.1.1).mpr hfirst.1
  cases hscan : scan r 2 with
  | none =>
      have hnone := scan_none hscan i hfirst.1.1
      rw [hat] at hnone
      cases hnone
  | some found =>
      rcases scan_some hscan with ⟨k, hk, hfound, hbefore⟩
      have hplace := (candidate_iff hk).mp hfound
      have hle : i ≤ k := by
        by_contra hlt
        exact hfirst.2 k (by omega) found hplace
      have hge : k ≤ i := by
        by_contra hlt
        have hnone := hbefore i hfirst.1.1 (by omega)
        rw [hat] at hnone
        cases hnone
      have hsame : k = i := by omega
      rw [hsame, hat] at hfound
      exact hfound.symm

/-- The scan finds the first place that has six numbers. -/
theorem scan_iff : scan r 2 = some nums ↔ ∃ i, FirstPlace r i nums := by
  constructor
  · intro hscan
    rcases scan_some hscan with ⟨i, hi, hfound, hbefore⟩
    refine ⟨i, (candidate_iff hi).mp hfound, ?_⟩
    intro j hj others hplace
    have hother := (candidate_iff hplace.1).mpr hplace
    rw [hbefore j hplace.1 hj] at hother
    cases hother
  · rintro ⟨i, hfirst⟩
    exact hfirst.scan_eq

theorem scan_none_iff : scan r 2 = none ↔ ∀ i nums, ¬Place r i nums := by
  constructor
  · intro hscan i nums hplace
    have hat := (candidate_iff hplace.1).mpr hplace
    rw [scan_none hscan i hplace.1] at hat
    cases hat
  · intro hnone
    cases hscan : scan r 2 with
    | none => rfl
    | some nums =>
        rcases scan_iff.mp hscan with ⟨i, hplace, _⟩
        exact absurd hplace (hnone i nums)

theorem Place.bytes {i : ℕ} (hplace : Place r i nums) :
    nums.length = 6 ∧ ∀ num ∈ nums, num ≤ 255 := by
  rcases hplace with ⟨_, _, _, _, fields, _, _, _, _, _, hsix, hall, rfl⟩
  refine ⟨by rw [List.length_map, hsix], ?_⟩
  intro num hnum
  rcases List.mem_map.mp hnum with ⟨field, hfield, rfl⟩
  exact (hall field hfield).value

theorem portNumber_le (hnums : ∀ num ∈ nums, num ≤ 255) :
    portNumber nums ≤ 65535 := by
  have hbyte : ∀ i, nums.getD i 0 ≤ 255 := by
    intro i
    rw [List.getD_eq_getElem?_getD]
    cases hget : nums[i]? with
    | none => exact Nat.zero_le _
    | some num => exact hnums num (List.mem_of_getElem? hget)
  have hhigh := hbyte 4
  have hlow := hbyte 5
  unfold portNumber
  omega

/-! ## The address of an active transfer -/

/-- What `SetupActiveTransfer` finds: whether a listening socket could be
created, its port, or that the port is unknown, and the options. -/
structure ActiveSetup where
  listens : Bool
  localPort : Option UInt16
  limitPorts : Bool
  limitPortsOffset : ℤ
  ipv6 : Bool

/-- The port that is announced. -/
def announcedPort (setup : ActiveSetup) : Option ℤ :=
  if !setup.listens then none
  else
    match setup.localPort with
    | none => none
    | some localPort =>
        if setup.limitPorts then
          let port := (localPort.toNat : ℤ) + setup.limitPortsOffset
          if port ≤ 0 ∨ 65536 ≤ port then none else some port
        else some localPort.toNat

/-- `SetupActiveTransfer`; the port is not negative. -/
def setupActiveTransfer (setup : ActiveSetup) (ip : WString) : WString :=
  match announcedPort setup with
  | none => []
  | some port =>
      if setup.ipv6 then
        "|2|".toList ++ ip ++ '|' :: Nat.toDigits 10 port.toNat ++ ['|']
      else
        ip.map (fun char => if char = '.' then ',' else char) ++
          ',' :: Nat.toDigits 10 (port / 256).toNat ++
          ',' :: Nat.toDigits 10 (port % 256).toNat

theorem announcedPort_bounds {setup : ActiveSetup} {port : ℤ}
    (hport : announcedPort setup = some port) : 0 ≤ port ∧ port < 65536 := by
  unfold announcedPort at hport
  cases hlocal : setup.localPort with
  | none =>
      rw [hlocal] at hport
      simp at hport
  | some localPort =>
      have hlt : localPort.toNat < 65536 := localPort.toNat_lt
      rw [hlocal] at hport
      dsimp only at hport
      split_ifs at hport with hlistens hlimit hrange
      · cases hport
        omega
      · cases hport
        omega

theorem isNumber_toDigits {num : ℕ} (hnum : num ≤ 255) :
    IsNumber (Nat.toDigits 10 num) := by
  refine ⟨Nat.toDigits_ne_nil, ?_, ?_, ?_⟩
  · rw [Nat.length_toDigits_le_iff (by omega) (by omega)]
    omega
  · intro char hchar
    exact Nat.isDigit_of_mem_toDigits (by omega) (by omega) hchar
  · rw [Nat.ofDigitChars_ten_toDigits]
    exact hnum

theorem Place.digit {i : ℕ} (hplace : Place r i nums) :
    ∃ char, r[i + 1]? = some char ∧ char.isDigit = true := by
  rcases hplace with ⟨_, opening, run, rest, fields, hdrop, _, _, _, hfields,
    hsix, hall, _⟩
  rcases List.exists_cons_of_length_pos (by omega : 0 < fields.length) with
    ⟨field, others, rfl⟩
  have hnumber := hall field List.mem_cons_self
  rcases List.exists_cons_of_ne_nil hnumber.nonempty with ⟨char, more, rfl⟩
  refine ⟨char, ?_, hnumber.digits char List.mem_cons_self⟩
  have hindex : r[i + 1]? = (r.drop i)[1]? := by
    rw [List.getElem?_drop]
  rw [hindex, hdrop, hfields]
  cases others with
  | nil => simp at hsix
  | cons next others => rfl

def sixNumbers (a b c d : ℕ) (port : ℕ) : List ℕ :=
  [a, b, c, d, port / 256, port % 256]

theorem setupActiveTransfer_eq {setup : ActiveSetup} {port : ℤ}
    (hport : announcedPort setup = some port) (hipv4 : setup.ipv6 = false)
    (a b c d : ℕ) :
    setupActiveTransfer setup (hostText [a, b, c, d]) =
      [','].intercalate
        ((sixNumbers a b c d port.toNat).map (Nat.toDigits 10)) := by
  rcases announcedPort_bounds hport with ⟨hnonneg, _⟩
  have hhigh : (port / 256).toNat = port.toNat / 256 := by omega
  have hlow : (port % 256).toNat = port.toNat % 256 := by omega
  have hkept : ∀ num : ℕ,
      (Nat.toDigits 10 num).map
        (fun char => if char = '.' then ',' else char) =
      Nat.toDigits 10 num := by
    intro num
    have hsame : ∀ char ∈ Nat.toDigits 10 num,
        (if char = '.' then ',' else char) = id char := by
      intro char hchar
      have hdigit :=
        Nat.isDigit_of_mem_toDigits (by omega) (by omega) hchar
      have hdot : char ≠ '.' := by
        rintro rfl
        revert hdigit
        decide
      exact if_neg hdot
    rw [List.map_congr_left hsame, List.map_id]
  unfold setupActiveTransfer sixNumbers hostText
  rw [hport]
  simp [hipv4, hhigh, hlow, hkept, List.intercalate]

theorem intercalate_addressChars {fields : List WString}
    (hall : ∀ field ∈ fields, IsNumber field) :
    ∀ char ∈ [','].intercalate fields, isAddressChar char = true := by
  induction fields with
  | nil =>
      intro char hchar
      cases hchar
  | cons field others ih =>
      have hfield : ∀ char ∈ field, isAddressChar char = true := by
        intro char hchar
        have hdigit := (hall field List.mem_cons_self).digits char hchar
        unfold isAddressChar
        rw [hdigit, Bool.true_or]
      have hothers := ih fun other hother =>
        hall other (List.mem_cons_of_mem _ hother)
      cases others with
      | nil =>
          rw [List.intercalate_singleton]
          exact hfield
      | cons next others =>
          rw [List.intercalate_cons_cons]
          intro char hchar
          rcases List.mem_append.mp hchar with hchar | hchar
          · rcases List.mem_append.mp hchar with hchar | hcomma
            · exact hfield char hchar
            · rw [List.mem_singleton.mp hcomma]
              rfl
          · exact hothers char hchar

/-- Six numbers in parentheses are the first place of a reply. -/
theorem firstPlace_argument {code middle run rest : WString}
    {fields : List WString} (hcode : code.length = 3)
    (hmiddle : ∀ char ∈ middle, char.isDigit = false)
    (hrun : run = [','].intercalate fields) (hsix : fields.length = 6)
    (hall : ∀ field ∈ fields, IsNumber field) :
    FirstPlace (code ++ middle ++ '(' :: (run ++ ')' :: rest))
      (code.length + middle.length)
      (fields.map fun field => Nat.ofDigitChars 10 field 0) := by
  constructor
  · refine ⟨by omega, '(', run, ')' :: rest, fields, ?_, ?_, ?_, ?_, hrun,
      hsix, hall, rfl⟩
    · rw [← List.length_append, List.drop_left]
    · rw [hrun]
      exact intercalate_addressChars hall
    · intro char hchar
      cases hchar
      rfl
    · right
      left
      exact ⟨rfl, rfl⟩
  · intro j hj others hplace
    rcases hplace.digit with ⟨char, hget, hdigit⟩
    have hthree := hplace.1
    rw [List.append_assoc, List.getElem?_append_right (by omega)] at hget
    by_cases hlt : j + 1 - code.length < middle.length
    · rw [List.getElem?_append_left hlt] at hget
      have hnot := hmiddle char (List.mem_of_getElem? hget)
      rw [hdigit] at hnot
      cases hnot
    · have hindex : j + 1 - code.length = middle.length := by omega
      rw [List.getElem?_append_right (by omega), hindex, Nat.sub_self]
        at hget
      cases hget
      revert hdigit
      decide

/-- The address of a passive reply is the first one that is well formed, and
an argument of an active transfer reads back. -/
theorem parseAddress_spec (r : WString) :
    (∀ host port, parseAddress r = some (host, port) ↔
      ∃ i nums, FirstPlace r i nums ∧ host = hostText nums ∧
        port = portNumber nums) ∧
    (parseAddress r = none ↔ ∀ i nums, ¬Place r i nums) ∧
    (∀ host port, parseAddress r = some (host, port) → port ≤ 65535) ∧
    (∀ setup port, announcedPort setup = some port → setup.ipv6 = false →
      ∀ a b c d, a ≤ 255 → b ≤ 255 → c ≤ 255 → d ≤ 255 →
      ∀ code middle, code.length = 3 →
        (∀ char ∈ middle, char.isDigit = false) →
      ∃ number : ℕ, (number : ℤ) = port ∧
        parseAddress (code ++ middle ++
          '(' :: (setupActiveTransfer setup (hostText [a, b, c, d]) ++
            ')' :: r)) =
          some (hostText [a, b, c, d], number)) := by
  have hiff : ∀ host port, parseAddress r = some (host, port) ↔
      ∃ i nums, FirstPlace r i nums ∧ host = hostText nums ∧
        port = portNumber nums := by
    intro host port
    unfold parseAddress
    rw [Option.map_eq_some_iff]
    constructor
    · rintro ⟨nums, hscan, heq⟩
      rcases scan_iff.mp hscan with ⟨i, hfirst⟩
      cases heq
      exact ⟨i, nums, hfirst, rfl, rfl⟩
    · rintro ⟨i, nums, hfirst, rfl, rfl⟩
      exact ⟨nums, hfirst.scan_eq, rfl⟩
  refine ⟨hiff, ?_, ?_, ?_⟩
  · unfold parseAddress
    rw [Option.map_eq_none_iff]
    exact scan_none_iff
  · intro host port haddress
    rcases (hiff host port).mp haddress with ⟨i, nums, hfirst, _, rfl⟩
    exact portNumber_le hfirst.1.bytes.2
  · intro setup port hport hipv4 a b c d ha hb hc hd code middle hcode
      hmiddle
    rcases announcedPort_bounds hport with ⟨hnonneg, hlt⟩
    refine ⟨port.toNat, by omega, ?_⟩
    have hall : ∀ field ∈
        (sixNumbers a b c d port.toNat).map (Nat.toDigits 10),
        IsNumber field := by
      intro field hfield
      rcases List.mem_map.mp hfield with ⟨num, hnum, rfl⟩
      apply isNumber_toDigits
      unfold sixNumbers at hnum
      simp only [List.mem_cons, List.not_mem_nil, or_false] at hnum
      omega
    have hfirst := @firstPlace_argument code middle _ r _ hcode hmiddle rfl
      (by rfl) hall
    unfold parseAddress
    rw [setupActiveTransfer_eq hport hipv4, hfirst.scan_eq, List.map_map]
    have hvalues : (sixNumbers a b c d port.toNat).map
        ((fun field => Nat.ofDigitChars 10 field 0) ∘ Nat.toDigits 10) =
        sixNumbers a b c d port.toNat := by
      apply List.map_id''
      intro num
      exact Nat.ofDigitChars_ten_toDigits
    have hnumber : portNumber (sixNumbers a b c d port.toNat) =
        port.toNat := by
      show port.toNat / 256 * 256 + port.toNat % 256 = port.toNat
      omega
    rw [hvalues, Option.map_some, hnumber]
    rfl

end PasvReply

end TabFtp
