import TabFtp.ListingParserNames

/-!
# Where the data is cut does not matter

The lines of the data are described on the bytes alone, without buffers and
offsets.  `GetLine` reads what this description says, and what a partial pass
leaves is continued by later bytes as if they had been there before.
-/

namespace TabFtp

/-! ## The first byte of a kind -/

section

variable {Value : Type} {stops : Value → Bool} {first second : List Value}

theorem takeWhile_append_of_found {i : ℕ}
    (hfind : first.findIdx? stops = some i) :
    (first ++ second).takeWhile (fun value => !stops value) = first.take i ∧
      (first ++ second).dropWhile (fun value => !stops value) =
        first.drop i ++ second ∧
      i < first.length := by
  induction first generalizing i with
  | nil => cases hfind
  | cons value rest ih =>
      rw [List.findIdx?_cons] at hfind
      cases hstop : stops value with
      | true =>
          rw [hstop, if_pos rfl] at hfind
          rw [← Option.some.inj hfind]
          refine ⟨?_, ?_, Nat.succ_pos _⟩
          · rw [List.cons_append, List.takeWhile_cons_of_neg (by simp [hstop])]
            rfl
          · rw [List.cons_append, List.dropWhile_cons_of_neg (by simp [hstop])]
            rfl
      | false =>
          rw [hstop, if_neg Bool.false_ne_true] at hfind
          rcases Option.map_eq_some_iff.mp hfind with ⟨j, hj, rfl⟩
          rcases ih hj with ⟨htake, hdrop, hlt⟩
          refine ⟨?_, ?_, Nat.succ_lt_succ hlt⟩
          · rw [List.cons_append, List.takeWhile_cons_of_pos (by simp [hstop]),
              htake]
            rfl
          · rw [List.cons_append, List.dropWhile_cons_of_pos (by simp [hstop]),
              hdrop]
            rfl

theorem takeWhile_append_of_not_found (hfind : first.findIdx? stops = none) :
    (first ++ second).takeWhile (fun value => !stops value) =
        first ++ second.takeWhile (fun value => !stops value) ∧
      (first ++ second).dropWhile (fun value => !stops value) =
        second.dropWhile (fun value => !stops value) := by
  have hall : ∀ value ∈ first, (fun value => !stops value) value = true := by
    intro value hmem
    simp [List.findIdx?_eq_none_iff.mp hfind value hmem]
  exact ⟨List.takeWhile_append_of_pos hall, List.dropWhile_append_of_pos hall⟩

end

/-! ## The lines of some bytes -/

/-- `GetLine` on the bytes that are left. -/
def flatLine (config : ParserConfig) (breakAtEnd : Bool) :
    ℕ → List UInt8 → GotLine × List UInt8
  | 0, bytes => (.nothing, bytes)
  | fuel + 1, bytes =>
      let bytes := bytes.dropWhile isSkipped
      let line := bytes.takeWhile fun byte => !isLineEnd byte
      let rest := bytes.dropWhile fun byte => !isLineEnd byte
      if bytes.isEmpty then (.nothing, [])
      else if 10000 < line.length then (.error, bytes)
      else if breakAtEnd && rest.isEmpty then (.nothing, bytes)
      else if (config.lineText line).isEmpty then
        flatLine config breakAtEnd fuel rest
      else (.line (config.lineText line), rest)

/-- The bytes that are left. -/
def ListingParser.remaining (parser : ListingParser) : List UInt8 :=
  parser.dataList.flatten.drop parser.currentOffset

def OffsetIn (buffers : List (List UInt8)) (offset : ℕ) : Prop :=
  ∀ buffer ∈ buffers.head?, offset ≤ buffer.length

theorem drop_flatten {buffer : List UInt8} {buffers : List (List UInt8)}
    {offset : ℕ} (hoffset : OffsetIn (buffer :: buffers) offset) :
    (buffer :: buffers).flatten.drop offset =
      buffer.drop offset ++ buffers.flatten := by
  rw [List.flatten_cons, List.drop_append_of_le_length]
  exact hoffset buffer rfl

theorem offsetIn_zero (buffers : List (List UInt8)) : OffsetIn buffers 0 :=
  fun _ _ => Nat.zero_le _

theorem skipToLine_flat {buffers : List (List UInt8)} {offset : ℕ}
    (hoffset : OffsetIn buffers offset) :
    match skipToLine buffers offset with
    | none => (buffers.flatten.drop offset).dropWhile isSkipped = []
    | some (left, start) =>
        left.flatten.drop start =
            (buffers.flatten.drop offset).dropWhile isSkipped ∧
          left.flatten.drop start ≠ [] ∧ OffsetIn left start := by
  induction buffers generalizing offset with
  | nil => simp [skipToLine]
  | cons buffer buffers ih =>
      have hskip : isSkipped = fun byte => !!isSkipped byte := by
        funext byte
        rw [Bool.not_not]
      rw [drop_flatten hoffset, hskip]
      unfold skipToLine
      cases hfind : (buffer.drop offset).findIdx? fun byte =>
          !isSkipped byte with
      | none =>
          rw [(takeWhile_append_of_not_found hfind).2]
          have hnext := ih (offsetIn_zero buffers)
          rw [List.drop_zero, hskip] at hnext
          exact hnext
      | some i =>
          rcases @takeWhile_append_of_found _ _ _ buffers.flatten _ hfind with
            ⟨_, hdrop, hlt⟩
          rw [List.length_drop] at hlt
          have hin : OffsetIn (buffer :: buffers) (offset + i) := by
            intro other hother
            rw [← Option.some.inj hother]
            omega
          simp only
          rw [drop_flatten hin, hdrop, List.drop_drop]
          refine ⟨rfl, ?_, hin⟩
          intro hempty
          have hnil := (List.append_eq_nil_iff.mp hempty).1
          rw [List.drop_eq_nil_iff] at hnil
          omega

theorem findLineEnd_from (buffers : List (List UInt8)) (offset reslen iter : ℕ) :
    findLineEnd buffers offset reslen iter =
      ⟨reslen + (findLineEnd buffers offset 0 0).reslen,
        iter + (findLineEnd buffers offset 0 0).iter,
        (findLineEnd buffers offset 0 0).currentOffset,
        (findLineEnd buffers offset 0 0).ended⟩ := by
  induction buffers generalizing offset reslen iter with
  | nil => rfl
  | cons buffer buffers ih =>
      unfold findLineEnd
      cases (buffer.drop offset).findIdx? isLineEnd with
      | some i => simp
      | none =>
          cases buffers with
          | nil => simp
          | cons next buffers =>
              simp only
              rw [ih 0 (reslen + (buffer.length - offset)) (iter + 1),
                ih 0 (0 + (buffer.length - offset)) (0 + 1)]
              simp only [LineStop.mk.injEq, and_true]
              omega

theorem takeLine_cons (buffer : List UInt8) (buffers : List (List UInt8))
    (offset : ℕ) (stop : LineStop) (hoffset : offset ≤ buffer.length) :
    takeLine (buffer :: buffers) offset
        ⟨buffer.length - offset + stop.reslen, 1 + stop.iter,
          stop.currentOffset, stop.ended⟩ =
      (buffer.drop offset ++ (takeLine buffers 0 stop).1,
        (takeLine buffers 0 stop).2) := by
  have hzero (list : List (List UInt8)) (start : ℕ) :
      copyBuffers list start 0 = ([], 0, start) := by
    cases list <;> rfl
  have hcons (list : List (List UInt8)) (reslen : ℕ) :
      copyBuffers (buffer :: list) offset reslen =
        if reslen = 0 then ([], reslen, offset)
        else
          ((buffer.drop offset).take (min (buffer.length - offset) reslen) ++
            (copyBuffers list 0
              (reslen - min (buffer.length - offset) reslen)).1,
            (copyBuffers list 0
              (reslen - min (buffer.length - offset) reslen)).2) := rfl
  unfold takeLine
  simp only [Nat.add_comm 1, List.take_succ_cons, List.drop_succ_cons, hcons]
  by_cases hnone : buffer.length - offset + stop.reslen = 0
  · have hreslen : stop.reslen = 0 := by omega
    have hlen : buffer.length - offset = 0 := by omega
    have hdrop : buffer.drop offset = [] := by
      rw [List.drop_eq_nil_iff]
      omega
    simp only [hdrop, hreslen, hlen, hzero]
    cases buffers.drop stop.iter with
    | nil => rfl
    | cons last rest => rfl
  · have hmin : min (buffer.length - offset)
        (buffer.length - offset + stop.reslen) = buffer.length - offset := by
      omega
    have htake : (buffer.drop offset).take (buffer.length - offset) =
        buffer.drop offset := by
      apply List.take_of_length_le
      rw [List.length_drop]
    simp only [if_neg hnone, hmin, htake, Nat.add_sub_cancel_left]
    cases buffers.drop stop.iter with
    | nil => rfl
    | cons last rest =>
        simp only
        split_ifs <;> simp [List.append_assoc]

theorem takeLine_flat {buffers : List (List UInt8)} {offset : ℕ}
    (hoffset : OffsetIn buffers offset) {stop : LineStop}
    (hstop : findLineEnd buffers offset 0 0 = stop) :
    stop.reslen = ((buffers.flatten.drop offset).takeWhile fun byte =>
        !isLineEnd byte).length ∧
      (stop.ended = !((buffers.flatten.drop offset).dropWhile fun byte =>
        !isLineEnd byte).isEmpty) ∧
      (takeLine buffers offset stop).1 =
        (buffers.flatten.drop offset).takeWhile (fun byte =>
          !isLineEnd byte) ∧
      (takeLine buffers offset stop).2.flatten.drop stop.currentOffset =
        (buffers.flatten.drop offset).dropWhile (fun byte =>
          !isLineEnd byte) ∧
      OffsetIn (takeLine buffers offset stop).2 stop.currentOffset := by
  subst hstop
  induction buffers generalizing offset with
  | nil => simp [findLineEnd, takeLine, copyBuffers, OffsetIn]
  | cons buffer buffers ih =>
      have hle : offset ≤ buffer.length := hoffset buffer rfl
      rw [drop_flatten hoffset]
      unfold findLineEnd
      cases hfind : (buffer.drop offset).findIdx? isLineEnd with
      | some i =>
          rcases @takeWhile_append_of_found _ _ _ buffers.flatten _ hfind with
            ⟨htake, hdrop, hlt⟩
          rw [htake, hdrop]
          have hsize := hlt
          rw [List.length_drop] at hsize
          have hin : OffsetIn (buffer :: buffers) (offset + i) := by
            intro other hother
            rw [← Option.some.inj hother]
            omega
          have htaken : takeLine (buffer :: buffers) offset
              ⟨0 + i, 0, offset + i, true⟩ =
                ((buffer.drop offset).take i, buffer :: buffers) := by
            unfold takeLine
            simp only [List.take_zero, List.drop_zero, copyBuffers,
              Nat.zero_add, Nat.add_sub_cancel_left, min_self,
              List.nil_append]
            by_cases hzero : i = 0
            · subst hzero
              simp
            · rw [if_pos hzero, if_neg (by omega)]
          simp only [htaken]
          refine ⟨?_, ?_, trivial, ?_, hin⟩
          · rw [List.length_take]
            omega
          · symm
            rw [Bool.not_eq_true', List.isEmpty_eq_false_iff]
            intro hempty
            have hnil := (List.append_eq_nil_iff.mp hempty).1
            rw [List.drop_eq_nil_iff] at hnil
            omega
          · rw [drop_flatten hin, List.drop_drop]
      | none =>
          rcases @takeWhile_append_of_not_found _ _ _ buffers.flatten hfind
            with ⟨htake, hdrop⟩
          rw [htake, hdrop]
          cases buffers with
          | nil =>
              have htaken := takeLine_cons buffer [] offset
                ⟨0, 0, buffer.length, false⟩ hle
              simp only [Nat.add_zero] at htaken
              simp only [Nat.zero_add, htaken]
              simp [takeLine, copyBuffers, OffsetIn]
          | cons next buffers =>
              simp only
              have hnext := ih (offsetIn_zero (next :: buffers))
              rw [List.drop_zero] at hnext
              rw [findLineEnd_from, Nat.zero_add, Nat.zero_add,
                takeLine_cons _ _ _ _ hle]
              rcases hnext with ⟨hlen, hended, hline, hrest, hin⟩
              refine ⟨?_, hended, ?_, hrest, hin⟩
              · rw [hlen, List.length_append, List.length_drop]
              · rw [hline]

/-! ## Reading a line from the buffers -/

variable {config : ParserConfig} {brk : Bool}

def ListingParser.OffsetIn (parser : ListingParser) : Prop :=
  TabFtp.OffsetIn parser.dataList parser.currentOffset

def SameBut (parser after : ListingParser) : Prop :=
  after.core = parser.core ∧ after.encoding = parser.encoding ∧
    after.totalData = parser.totalData

theorem getLine_flat (fuel : ℕ) (parser : ListingParser)
    (hoffset : parser.OffsetIn) :
    ((getLine config brk fuel parser).1,
        (getLine config brk fuel parser).2.remaining) =
        flatLine config brk fuel parser.remaining ∧
      (getLine config brk fuel parser).2.OffsetIn ∧
      SameBut parser (getLine config brk fuel parser).2 := by
  induction fuel generalizing parser with
  | zero => exact ⟨rfl, hoffset, rfl, rfl, rfl⟩
  | succ fuel ih =>
      unfold getLine flatLine
      by_cases hnone : parser.dataList.isEmpty
      · have hnil : parser.dataList = [] := List.isEmpty_iff.mp hnone
        have hleft : parser.remaining = [] := by
          simp [ListingParser.remaining, hnil]
        rw [if_pos hnone, hleft]
        exact ⟨rfl, hoffset, rfl, rfl, rfl⟩
      rw [if_neg hnone]
      have hskip := skipToLine_flat hoffset
      cases hfound : skipToLine parser.dataList parser.currentOffset with
      | none =>
          rw [hfound] at hskip
          change parser.remaining.dropWhile isSkipped = [] at hskip
          rw [hskip]
          exact ⟨rfl, offsetIn_zero _, rfl, rfl, rfl⟩
      | some found =>
          obtain ⟨left, start⟩ := found
          rw [hfound] at hskip
          simp only at hskip ⊢
          rcases hskip with ⟨hleft, hne, hin⟩
          change left.flatten.drop start =
            parser.remaining.dropWhile isSkipped at hleft
          rcases takeLine_flat hin rfl with ⟨hlen, hended, hline, hrest, hnext⟩
          rw [← hleft]
          have hthere : (left.flatten.drop start).isEmpty = false :=
            List.isEmpty_eq_false_iff.mpr hne
          simp only [hthere, Bool.false_eq_true, if_false, hlen, hended, hline,
            Bool.not_not]
          split_ifs with hlong hwait hempty
          · exact ⟨rfl, hin, rfl, rfl, rfl⟩
          · exact ⟨rfl, hin, rfl, rfl, rfl⟩
          · have hmore := ih
              { parser with
                dataList := (takeLine left start
                  (findLineEnd left start 0 0)).2
                currentOffset :=
                  (findLineEnd left start 0 0).currentOffset } hnext
            rw [← hrest]
            exact hmore
          · refine ⟨?_, hnext, rfl, rfl, rfl⟩
            rw [← hrest]
            rfl

theorem takeWhile_line_ne_nil {bytes : List UInt8}
    (hbytes : bytes.dropWhile isSkipped ≠ []) :
    ((bytes.dropWhile isSkipped).takeWhile fun byte => !isLineEnd byte) ≠
      [] := by
  cases hleft : bytes.dropWhile isSkipped with
  | nil => exact absurd hleft hbytes
  | cons byte rest =>
      have hhead := List.head?_dropWhile_not isSkipped bytes
      rw [hleft] at hhead
      have hline : isLineEnd byte = false := by
        unfold isSkipped at hhead
        simp only [List.head?_cons, Bool.or_eq_false_iff] at hhead
        exact hhead.1.1
      rw [List.takeWhile_cons_of_pos (by simp [hline])]
      exact List.cons_ne_nil _ _

theorem dropWhile_line_length {bytes : List UInt8}
    (hbytes : bytes.dropWhile isSkipped ≠ []) :
    ((bytes.dropWhile isSkipped).dropWhile fun byte =>
      !isLineEnd byte).length < bytes.length := by
  have hsplit := congrArg List.length (@List.takeWhile_append_dropWhile _
    (fun byte => !isLineEnd byte) (bytes.dropWhile isSkipped))
  rw [List.length_append] at hsplit
  have hline := List.length_pos_iff.mpr (takeWhile_line_ne_nil hbytes)
  have hle : (bytes.dropWhile isSkipped).length ≤ bytes.length :=
    (List.dropWhile_suffix isSkipped).length_le
  omega

theorem flatLine_length (fuel : ℕ) (bytes : List UInt8) :
    (flatLine config brk fuel bytes).2.length ≤ bytes.length ∧
      ∀ text, (flatLine config brk fuel bytes).1 = .line text →
        (flatLine config brk fuel bytes).2.length < bytes.length := by
  induction fuel generalizing bytes with
  | zero => exact ⟨le_rfl, fun text h => by cases h⟩
  | succ fuel ih =>
      unfold flatLine
      simp only
      have hle : (bytes.dropWhile isSkipped).length ≤ bytes.length :=
        (List.dropWhile_suffix isSkipped).length_le
      by_cases hnone : (bytes.dropWhile isSkipped).isEmpty
      · rw [if_pos hnone]
        exact ⟨Nat.zero_le _, fun text h => by cases h⟩
      have hlt := dropWhile_line_length
        (fun h => hnone (List.isEmpty_iff.mpr h))
      rw [if_neg hnone]
      split_ifs
      · exact ⟨hle, fun text h => by cases h⟩
      · exact ⟨hle, fun text h => by cases h⟩
      · have hmore := ih ((bytes.dropWhile isSkipped).dropWhile fun byte =>
          !isLineEnd byte)
        exact ⟨hmore.1.trans hlt.le, fun text h => (hmore.2 text h).trans hlt⟩
      · exact ⟨hlt.le, fun _ _ => hlt⟩

theorem flatLine_fuel {fuel : ℕ} {bytes : List UInt8}
    (hfuel : bytes.length < fuel) :
    flatLine config brk fuel bytes =
      flatLine config brk (bytes.length + 1) bytes := by
  induction fuel using Nat.strong_induction_on generalizing bytes with
  | h fuel ih =>
      obtain ⟨fuel, rfl⟩ : ∃ more, fuel = more + 1 := ⟨fuel - 1, by omega⟩
      by_cases hnone : (bytes.dropWhile isSkipped).isEmpty
      · unfold flatLine
        simp only [hnone, if_true]
      have hlt := dropWhile_line_length
        (fun h => hnone (List.isEmpty_iff.mpr h))
      have hmore := ih fuel (Nat.lt_succ_self _) (by omega :
        ((bytes.dropWhile isSkipped).dropWhile fun byte =>
          !isLineEnd byte).length < fuel)
      have hother : flatLine config brk bytes.length
          ((bytes.dropWhile isSkipped).dropWhile fun byte =>
            !isLineEnd byte) = flatLine config brk fuel
          ((bytes.dropWhile isSkipped).dropWhile fun byte =>
            !isLineEnd byte) := by
        by_cases hsame : fuel = bytes.length
        · rw [hsame]
        · rw [hmore]
          exact ih bytes.length (by omega) hlt
      unfold flatLine
      simp only [hother]

/-! ## All lines of some bytes -/

def nextLine (config : ParserConfig) (brk : Bool) (bytes : List UInt8) :
    GotLine × List UInt8 :=
  flatLine config brk (bytes.length + 1) bytes

/-- The lines of the bytes, the bytes that are left and whether there is no
line that is too long. -/
def allLines (config : ParserConfig) (brk : Bool) :
    ℕ → List UInt8 → List WString × List UInt8 × Bool
  | 0, bytes => ([], bytes, true)
  | fuel + 1, bytes =>
      match nextLine config brk bytes with
      | (.nothing, rest) => ([], rest, true)
      | (.error, rest) => ([], rest, false)
      | (.line text, rest) =>
          let more := allLines config brk fuel rest
          (text :: more.1, more.2)

def handleLines (config : ParserConfig) (core : ListingCore)
    (lines : List WString) : Option ListingCore :=
  lines.foldlM (fun core text => handleLine config core (Line.make text none))
    core

theorem nextLine_length {bytes rest : List UInt8} {text : WString}
    (hnext : nextLine config brk bytes = (.line text, rest)) :
    rest.length < bytes.length := by
  have hlength := (@flatLine_length config brk (bytes.length + 1) bytes).2 text
  unfold nextLine at hnext
  rw [hnext] at hlength
  exact hlength rfl

theorem remaining_length (parser : ListingParser) :
    parser.remaining.length ≤ parser.size := by
  unfold ListingParser.remaining ListingParser.size
  rw [List.length_drop]
  omega

theorem getLine_nextLine (parser : ListingParser) (hoffset : parser.OffsetIn) :
    ((getLine config brk (parser.size + 1) parser).1,
        (getLine config brk (parser.size + 1) parser).2.remaining) =
        nextLine config brk parser.remaining ∧
      (getLine config brk (parser.size + 1) parser).2.OffsetIn ∧
      SameBut parser (getLine config brk (parser.size + 1) parser).2 := by
  rcases @getLine_flat config brk (parser.size + 1) parser hoffset with
    ⟨hline, hnext⟩
  refine ⟨?_, hnext⟩
  rw [hline]
  exact flatLine_fuel (Nat.lt_succ_of_le (remaining_length parser))

theorem parseLines_flat {fuel : ℕ} {parser : ListingParser}
    (hoffset : parser.OffsetIn) (hfuel : parser.remaining.length < fuel)
    {lines : List WString × List UInt8 × Bool}
    (hlines : allLines config brk fuel parser.remaining = lines)
    {core : ListingCore}
    (hcore : handleLines config parser.core lines.1 = some core) :
    ∃ after, parseLines config brk fuel parser = some (after, lines.2.2) ∧
      after.core = core ∧ after.remaining = lines.2.1 ∧ after.OffsetIn ∧
      after.encoding = parser.encoding := by
  subst hlines
  induction fuel generalizing parser with
  | zero => omega
  | succ fuel ih =>
      rcases @getLine_nextLine config brk parser hoffset with
        ⟨hline, hin, hsame⟩
      unfold parseLines
      unfold allLines at hcore ⊢
      rw [← hline] at hcore ⊢
      cases hget : getLine config brk (parser.size + 1) parser with
      | mk got between =>
          rw [hget] at hin hsame hline hcore
          simp only at hin hsame hcore ⊢
          cases got with
          | nothing =>
              have hsamecore := Option.some.inj hcore
              exact ⟨between, rfl, hsame.1.trans hsamecore, rfl, hin, hsame.2.1⟩
          | error =>
              have hsamecore := Option.some.inj hcore
              exact ⟨between, rfl, hsame.1.trans hsamecore, rfl, hin, hsame.2.1⟩
          | line text =>
              have hshort : between.remaining.length <
                  parser.remaining.length := nextLine_length hline.symm
              simp only [handleLines, List.foldlM_cons] at hcore
              rw [← hsame.1] at hcore
              cases hhandle : handleLine config between.core
                  (Line.make text none) with
              | none =>
                  rw [hhandle] at hcore
                  cases hcore
              | some kept =>
                  rw [hhandle] at hcore
                  simp only
                  rcases @ih { between with core := kept } hin
                      (by
                        change between.remaining.length < fuel
                        omega) hcore
                    with ⟨after, hrun, hrest⟩
                  rw [hhandle]
                  refine ⟨after, hrun, hrest.1, hrest.2.1, hrest.2.2.1, ?_⟩
                  exact hrest.2.2.2.trans hsame.2.1

/-! ## Later bytes -/

theorem nextLine_eq (config : ParserConfig) (brk : Bool)
    (bytes : List UInt8) :
    nextLine config brk bytes =
      if (bytes.dropWhile isSkipped).isEmpty then (.nothing, [])
      else if 10000 < ((bytes.dropWhile isSkipped).takeWhile fun byte =>
          !isLineEnd byte).length then
        (.error, bytes.dropWhile isSkipped)
      else if brk && ((bytes.dropWhile isSkipped).dropWhile fun byte =>
          !isLineEnd byte).isEmpty then
        (.nothing, bytes.dropWhile isSkipped)
      else if (config.lineText ((bytes.dropWhile isSkipped).takeWhile
          fun byte => !isLineEnd byte)).isEmpty then
        nextLine config brk ((bytes.dropWhile isSkipped).dropWhile fun byte =>
          !isLineEnd byte)
      else
        (.line (config.lineText ((bytes.dropWhile isSkipped).takeWhile
            fun byte => !isLineEnd byte)),
          (bytes.dropWhile isSkipped).dropWhile fun byte =>
            !isLineEnd byte) := by
  by_cases hnone : (bytes.dropWhile isSkipped).isEmpty
  · unfold nextLine flatLine
    simp only [hnone, if_true]
  have hlt := dropWhile_line_length (fun h => hnone (List.isEmpty_iff.mpr h))
  have hfuel := @flatLine_fuel config brk bytes.length _ hlt
  unfold nextLine
  rw [flatLine, hfuel]

theorem nextLine_congr {first second : List UInt8}
    (hsame : first.dropWhile isSkipped = second.dropWhile isSkipped) :
    nextLine config brk first = nextLine config brk second := by
  rw [nextLine_eq config brk first, nextLine_eq config brk second, hsame]

theorem dropWhile_append_of_left {bytes : List UInt8} (later : List UInt8)
    (hbytes : bytes.dropWhile isSkipped ≠ []) :
    (bytes ++ later).dropWhile isSkipped =
      bytes.dropWhile isSkipped ++ later := by
  rw [List.dropWhile_append,
    if_neg fun h => hbytes (List.isEmpty_iff.mp h)]

theorem nextLine_append (config : ParserConfig) (later : List UInt8)
    (bytes : List UInt8) :
    match nextLine config true bytes with
    | (.line text, rest) =>
        ∀ brk, nextLine config brk (bytes ++ later) =
          (.line text, rest ++ later)
    | (_, rest) =>
        ∀ brk, nextLine config brk (bytes ++ later) =
          nextLine config brk (rest ++ later) := by
  induction hlen : bytes.length using Nat.strong_induction_on
    generalizing bytes with
  | h len ih =>
      rw [nextLine_eq]
      by_cases hnone : (bytes.dropWhile isSkipped).isEmpty
      · rw [if_pos hnone]
        intro brk
        apply nextLine_congr
        rw [List.dropWhile_append, if_pos hnone]
        rfl
      have hne : bytes.dropWhile isSkipped ≠ [] :=
        fun h => hnone (List.isEmpty_iff.mpr h)
      have happend := dropWhile_append_of_left later hne
      have hstays : ∀ brk, nextLine config brk (bytes ++ later) =
          nextLine config brk (bytes.dropWhile isSkipped ++ later) := by
        intro brk
        apply nextLine_congr
        rw [happend, dropWhile_append_of_left later, List.dropWhile_idempotent]
        rw [List.dropWhile_idempotent]
        exact hne
      rw [if_neg hnone]
      by_cases hlong : 10000 < ((bytes.dropWhile isSkipped).takeWhile
          fun byte => !isLineEnd byte).length
      · rw [if_pos hlong]
        exact hstays
      rw [if_neg hlong, Bool.true_and]
      by_cases hopen : ((bytes.dropWhile isSkipped).dropWhile fun byte =>
          !isLineEnd byte).isEmpty
      · rw [if_pos hopen]
        exact hstays
      rw [if_neg hopen]
      -- the line is complete, so later bytes are behind it
      have hsplit := @List.takeWhile_append_dropWhile _
        (fun byte => !isLineEnd byte) (bytes.dropWhile isSkipped)
      have hended : ((bytes.dropWhile isSkipped).takeWhile fun byte =>
          !isLineEnd byte).length ≠ (bytes.dropWhile isSkipped).length := by
        intro hall
        have hcount := congrArg List.length hsplit
        rw [List.length_append] at hcount
        apply hopen
        rw [List.isEmpty_iff, ← List.length_eq_zero_iff]
        omega
      have htake : ((bytes.dropWhile isSkipped ++ later).takeWhile fun byte =>
          !isLineEnd byte) = (bytes.dropWhile isSkipped).takeWhile
            fun byte => !isLineEnd byte := by
        rw [List.takeWhile_append, if_neg hended]
      have hdrop : ((bytes.dropWhile isSkipped ++ later).dropWhile fun byte =>
          !isLineEnd byte) = ((bytes.dropWhile isSkipped).dropWhile
            fun byte => !isLineEnd byte) ++ later := by
        rw [List.dropWhile_append, if_neg hopen]
      have hthere : (bytes.dropWhile isSkipped ++ later).isEmpty = false := by
        rw [List.isEmpty_eq_false_iff]
        exact List.append_ne_nil_of_left_ne_nil hne later
      have hmore : (((bytes.dropWhile isSkipped).dropWhile fun byte =>
          !isLineEnd byte) ++ later).isEmpty = false := by
        rw [List.isEmpty_eq_false_iff]
        apply List.append_ne_nil_of_left_ne_nil
        exact fun h => hopen (List.isEmpty_iff.mpr h)
      have hnext : ∀ brk, nextLine config brk (bytes ++ later) =
          if (config.lineText ((bytes.dropWhile isSkipped).takeWhile
              fun byte => !isLineEnd byte)).isEmpty then
            nextLine config brk (((bytes.dropWhile isSkipped).dropWhile
              fun byte => !isLineEnd byte) ++ later)
          else
            (.line (config.lineText ((bytes.dropWhile isSkipped).takeWhile
                fun byte => !isLineEnd byte)),
              ((bytes.dropWhile isSkipped).dropWhile fun byte =>
                !isLineEnd byte) ++ later) := by
        intro brk
        rw [nextLine_eq, happend, htake, hdrop, hthere, hmore, Bool.and_false,
          if_neg Bool.false_ne_true, if_neg hlong, if_neg Bool.false_ne_true]
      by_cases hempty : (config.lineText ((bytes.dropWhile isSkipped).takeWhile
          fun byte => !isLineEnd byte)).isEmpty
      · have hshort := dropWhile_line_length hne
        have hih := ih _ (hlen ▸ hshort) _ rfl
        simp only [hempty, if_true] at hnext ⊢
        simp only [hnext]
        exact hih
      · rw [if_neg hempty]
        intro brk
        rw [hnext brk, if_neg hempty]

/-! ## All lines and later bytes -/

theorem allLines_fuel {fuel more : ℕ} {bytes : List UInt8}
    (hfuel : bytes.length < fuel) (hmore : bytes.length < more) :
    allLines config brk fuel bytes = allLines config brk more bytes := by
  induction fuel generalizing more bytes with
  | zero => omega
  | succ fuel ih =>
      obtain ⟨more, rfl⟩ : ∃ less, more = less + 1 := ⟨more - 1, by omega⟩
      unfold allLines
      cases hnext : nextLine config brk bytes with
      | mk got rest =>
          cases got with
          | nothing => rfl
          | error => rfl
          | line text =>
              have hshort := nextLine_length hnext
              simp only
              rw [@ih more rest (by omega) (by omega)]

def linesOf (config : ParserConfig) (brk : Bool) (bytes : List UInt8) :
    List WString × List UInt8 × Bool :=
  allLines config brk (bytes.length + 1) bytes

theorem linesOf_eq (config : ParserConfig) (brk : Bool)
    (bytes : List UInt8) :
    linesOf config brk bytes =
      match nextLine config brk bytes with
      | (.nothing, rest) => ([], rest, true)
      | (.error, rest) => ([], rest, false)
      | (.line text, rest) =>
          (text :: (linesOf config brk rest).1,
            (linesOf config brk rest).2) := by
  unfold linesOf
  rw [allLines]
  cases hnext : nextLine config brk bytes with
  | mk got rest =>
      cases got with
      | nothing => rfl
      | error => rfl
      | line text =>
          have hshort := nextLine_length hnext
          simp only
          rw [@allLines_fuel config brk bytes.length (rest.length + 1) rest
            hshort (Nat.lt_succ_self _)]

theorem linesOf_append (config : ParserConfig) (later : List UInt8)
    (bytes : List UInt8) :
    linesOf config false (bytes ++ later) =
      ((linesOf config true bytes).1 ++
          (linesOf config false
            ((linesOf config true bytes).2.1 ++ later)).1,
        (linesOf config false
          ((linesOf config true bytes).2.1 ++ later)).2) := by
  induction hlen : bytes.length using Nat.strong_induction_on
    generalizing bytes with
  | h len ih =>
      have happend := nextLine_append config later bytes
      have hfirst := linesOf_eq config true bytes
      cases hnext : nextLine config true bytes with
      | mk got rest =>
          rw [hnext] at happend hfirst
          cases got with
          | nothing =>
              rw [hfirst, List.nil_append, linesOf_eq, happend false,
                ← linesOf_eq]
          | error =>
              rw [hfirst, List.nil_append, linesOf_eq, happend false,
                ← linesOf_eq]
          | line text =>
              have hih := ih rest.length (hlen ▸ nextLine_length hnext) rest rfl
              rw [hfirst, linesOf_eq, happend false]
              simp only [hih]
              rfl

/-! ## The listing -/

variable (config)

theorem handleLine_some (hlib : config.lib.SetsDates) (core : ListingCore)
    (text : WString) :
    ∃ kept, handleLine config core (Line.make text none) = some kept := by
  rcases parseLine_line config hlib core _ (Line.make_inv text none) false none
    with ⟨between, after, found, hrun, _⟩
  unfold handleLine
  rw [hrun]
  cases found with
  | true => exact ⟨_, rfl⟩
  | false =>
      simp only
      cases between.prevLine with
      | none => exact ⟨_, rfl⟩
      | some prevLine =>
          rcases parseLine_line config hlib between _
              (Line.make_inv (prevLine.text ++ [' '] ++ after.text)
                after.trailingWhitespace) true none
            with ⟨last, _, found, hjoined, _⟩
          have hconcat : parseLine config between (prevLine.concat after) true
              none = _ := hjoined
          simp only [hconcat]
          cases found <;> exact ⟨_, rfl⟩

theorem handleLines_some (hlib : config.lib.SetsDates) (lines : List WString)
    (core : ListingCore) : ∃ kept, handleLines config core lines = some kept := by
  induction lines generalizing core with
  | nil => exact ⟨core, rfl⟩
  | cons text lines ih =>
      rcases handleLine_some config hlib core text with ⟨between, hline⟩
      rcases ih between with ⟨kept, hlines⟩
      refine ⟨kept, ?_⟩
      simp only [handleLines, List.foldlM_cons, hline]
      exact hlines

/-- What `Parse` makes of the bytes that are left. -/
def finalOutcome (core : ListingCore) (bytes : List UInt8) :
    Option ListingCore × Bool :=
  (handleLines config core (linesOf config false bytes).1,
    (linesOf config false bytes).2.2)

theorem deduceEncoding_known {parser : ListingParser}
    (hencoding : parser.encoding ≠ .unknown) :
    parser.deduceEncoding = parser := by
  unfold ListingParser.deduceEncoding
  rw [if_pos hencoding]

theorem parseData_flat (hlib : config.lib.SetsDates) (isPartial : Bool)
    {parser : ListingParser} (hoffset : parser.OffsetIn)
    (hencoding : parser.encoding ≠ .unknown) :
    ∃ after, parser.parseData config isPartial =
        some (after, (linesOf config isPartial parser.remaining).2.2) ∧
      handleLines config parser.core
          (linesOf config isPartial parser.remaining).1 = some after.core ∧
      after.remaining = (linesOf config isPartial parser.remaining).2.1 ∧
      after.OffsetIn ∧ after.encoding = parser.encoding := by
  have hsize := remaining_length parser
  have hlines : allLines config isPartial (parser.size + 1) parser.remaining =
      linesOf config isPartial parser.remaining :=
    allLines_fuel (Nat.lt_succ_of_le hsize) (Nat.lt_succ_self _)
  rcases handleLines_some config hlib
      (linesOf config isPartial parser.remaining).1 parser.core
    with ⟨core, hcore⟩
  rcases parseLines_flat hoffset (Nat.lt_succ_of_le hsize) hlines hcore
    with ⟨after, hrun, hsame, hrest, hin, hkeeps⟩
  refine ⟨after, ?_, ?_, hrest, hin, hkeeps⟩
  · unfold ListingParser.parseData
    rw [deduceEncoding_known hencoding]
    exact hrun
  · rw [hsame]
    exact hcore

/-! ## Feeding the parser -/

def ListingParser.Started (parser : ListingParser) : Prop :=
  parser.dataList = [] → parser.currentOffset = 0

theorem receive_remaining {parser : ListingParser} (hoffset : parser.OffsetIn)
    (hstart : parser.Started) (data : List UInt8) :
    (parser.receive data).remaining =
        parser.remaining ++ convertEncoding parser.encoding data ∧
      (parser.receive data).OffsetIn := by
  unfold ListingParser.Started at hstart
  unfold ListingParser.remaining ListingParser.OffsetIn ListingParser.receive
  cases hdata : parser.dataList with
  | nil =>
      simp [hstart hdata, OffsetIn]
  | cons buffer buffers =>
      have hin : OffsetIn (buffer :: buffers) parser.currentOffset :=
        hdata ▸ hoffset
      have hlonger : OffsetIn (buffer :: (buffers ++
          [convertEncoding parser.encoding data])) parser.currentOffset := hin
      simp only [List.cons_append]
      refine ⟨?_, hlonger⟩
      rw [drop_flatten hin, drop_flatten hlonger, List.flatten_append,
        List.append_assoc, List.flatten_singleton]

theorem receive_started (parser : ListingParser) (data : List UInt8) :
    (parser.receive data).Started := by
  intro hnone
  unfold ListingParser.receive at hnone
  exact absurd hnone (List.append_ne_nil_of_right_ne_nil _ (by simp))

theorem takeLine_ne_nil {buffers : List (List UInt8)} {offset : ℕ}
    (hoffset : OffsetIn buffers offset)
    (hended : (findLineEnd buffers offset 0 0).ended = true) :
    (takeLine buffers offset (findLineEnd buffers offset 0 0)).2 ≠ [] := by
  rcases takeLine_flat hoffset rfl with ⟨_, hfound, _, hrest, _⟩
  intro hnone
  rw [hnone, List.flatten_nil, List.drop_nil] at hrest
  rw [← hrest, hended] at hfound
  cases hfound

theorem getLine_started (fuel : ℕ) {parser : ListingParser}
    (hoffset : parser.OffsetIn) (hstart : parser.Started) :
    (getLine config true fuel parser).2.Started := by
  induction fuel generalizing parser with
  | zero => exact hstart
  | succ fuel ih =>
      unfold getLine
      by_cases hnone : parser.dataList.isEmpty
      · rw [if_pos hnone]
        exact hstart
      rw [if_neg hnone]
      have hskip := skipToLine_flat hoffset
      cases hfound : skipToLine parser.dataList parser.currentOffset with
      | none => exact fun _ => rfl
      | some found =>
          obtain ⟨left, start⟩ := found
          rw [hfound] at hskip
          simp only at hskip ⊢
          rcases hskip with ⟨_, hne, hin⟩
          have hleft : left ≠ [] := by
            intro hnil
            rw [hnil] at hne
            exact hne (by simp)
          split_ifs with hlong hwait hempty
          · exact fun h => absurd h hleft
          · exact fun h => absurd h hleft
          · rcases takeLine_flat hin rfl with ⟨_, _, _, _, hnext⟩
            refine @ih { parser with
              dataList := (takeLine left start
                (findLineEnd left start 0 0)).2
              currentOffset :=
                (findLineEnd left start 0 0).currentOffset } hnext ?_
            intro h
            apply absurd h
            apply takeLine_ne_nil hin
            simpa using hwait
          · intro h
            apply absurd h
            apply takeLine_ne_nil hin
            simpa using hwait

theorem parseLines_started {fuel : ℕ} {parser after : ListingParser} {ok : Bool}
    (hoffset : parser.OffsetIn) (hstart : parser.Started)
    (hrun : parseLines config true fuel parser = some (after, ok)) :
    after.Started := by
  induction fuel generalizing parser with
  | zero => cases hrun
  | succ fuel ih =>
      have hbetween := getLine_started config (parser.size + 1) hoffset hstart
      have hin := (@getLine_nextLine config true parser hoffset).2.1
      unfold parseLines at hrun
      cases hget : getLine config true (parser.size + 1) parser with
      | mk got between =>
          rw [hget] at hrun hbetween hin
          cases got with
          | nothing =>
              cases hrun
              exact hbetween
          | error =>
              cases hrun
              exact hbetween
          | line text =>
              simp only at hrun
              cases hline : handleLine config between.core
                  (Line.make text none) with
              | none =>
                  rw [hline] at hrun
                  cases hrun
              | some kept =>
                  rw [hline] at hrun
                  exact @ih { between with core := kept } hin hbetween hrun

structure ListingParser.Ready (parser : ListingParser)
    (encoding : ListingEncoding) : Prop where
  offset : parser.OffsetIn
  started : parser.Started
  encoding : parser.encoding = encoding

theorem finalOutcome_append {core kept : ListingCore} {bytes : List UInt8}
    (hkept : handleLines config core (linesOf config true bytes).1 = some kept)
    (later : List UInt8) :
    finalOutcome config core (bytes ++ later) =
      finalOutcome config kept ((linesOf config true bytes).2.1 ++ later) := by
  unfold finalOutcome
  rw [linesOf_append]
  unfold handleLines at hkept ⊢
  rw [List.foldlM_append, hkept]
  rfl

theorem addData_outcome (hlib : config.lib.SetsDates)
    {encoding : ListingEncoding} (hencoding : encoding ≠ .unknown)
    {parser : ListingParser} (hready : parser.Ready encoding)
    (data : List UInt8) :
    ∃ after ok, parser.addData config data = some (after, ok) ∧
      after.Ready encoding ∧
      ∀ later, finalOutcome config after.core (after.remaining ++ later) =
        finalOutcome config parser.core
          (parser.remaining ++ (convertEncoding encoding data ++ later)) := by
  have hkeeps : (parser.receive data).encoding = encoding := hready.encoding
  rcases receive_remaining hready.offset hready.started data with
    ⟨hbytes, hin⟩
  rw [hready.encoding] at hbytes
  unfold ListingParser.addData
  simp only [← List.append_assoc]
  rw [← hbytes]
  by_cases hwait : (parser.receive data).totalData < 512
  · rw [if_pos hwait]
    refine ⟨_, _, rfl, ⟨hin, receive_started parser data, hkeeps⟩, ?_⟩
    intro later
    rfl
  · rw [if_neg hwait]
    have hknown : (parser.receive data).encoding ≠ .unknown := by
      rw [hkeeps]
      exact hencoding
    rcases parseData_flat config hlib true hin hknown with
      ⟨after, hrun, hlines, hrest, hafter, hsame⟩
    refine ⟨after, _, hrun, ⟨hafter, ?_, hsame.trans hkeeps⟩, ?_⟩
    · unfold ListingParser.parseData at hrun
      rw [deduceEncoding_known hknown] at hrun
      exact parseLines_started config hin (receive_started parser data) hrun
    · intro later
      rw [hrest]
      exact (finalOutcome_append config hlines later).symm

theorem convertEncoding_append (encoding : ListingEncoding)
    (first second : List UInt8) :
    convertEncoding encoding (first ++ second) =
      convertEncoding encoding first ++ convertEncoding encoding second :=
  List.map_append

/-- The chunks leave what all data at once would leave. -/
theorem runCalls_outcome (hlib : config.lib.SetsDates)
    {encoding : ListingEncoding} (hencoding : encoding ≠ .unknown)
    {parser : ListingParser} (hready : parser.Ready encoding)
    (chunks : List (List UInt8)) :
    ∃ after, runCalls config (chunks.map .addData) parser = some after ∧
      after.Ready encoding ∧
      finalOutcome config after.core after.remaining =
        finalOutcome config parser.core
          (parser.remaining ++ convertEncoding encoding chunks.flatten) := by
  induction chunks generalizing parser with
  | nil =>
      refine ⟨parser, rfl, hready, ?_⟩
      rw [List.flatten_nil, convertEncoding, List.map_nil, List.append_nil]
  | cons data chunks ih =>
      rcases addData_outcome config hlib hencoding hready data with
        ⟨between, ok, hadd, hbetween, hsame⟩
      rcases ih hbetween with ⟨after, hrun, hafter, hrest⟩
      refine ⟨after, ?_, hafter, ?_⟩
      · unfold runCalls List.map ListingCall.run
        simp only [hadd, Option.map_some]
        exact hrun
      · rw [hrest, hsame, List.flatten_cons, convertEncoding_append]

/-- The listing depends on what is left of the data only. -/
theorem parse_outcome (hlib : config.lib.SetsDates)
    {encoding : ListingEncoding} (hencoding : encoding ≠ .unknown)
    {parser : ListingParser} (hready : parser.Ready encoding)
    (path : ServerPath) (now : ℤ) :
    ∃ core, finalOutcome config parser.core parser.remaining =
        (some core, (linesOf config false parser.remaining).2.2) ∧
      parser.parse config path now =
        some (if (linesOf config false parser.remaining).2.2 then
          DirectoryListing.assign ⟨path, now, [], none, none, 0⟩
            core.finalEntries
        else
          DirectoryListing.addFlag ⟨path, now, [], none, none, 0⟩
            DirectoryListing.listingFailed) := by
  have hknown : parser.encoding ≠ .unknown := by
    rw [hready.encoding]
    exact hencoding
  rcases parseData_flat config hlib false hready.offset hknown with
    ⟨after, hrun, hlines, _⟩
  refine ⟨after.core, ?_, ?_⟩
  · unfold finalOutcome
    rw [hlines]
  · unfold ListingParser.parse
    rw [hrun]
    cases (linesOf config false parser.remaining).2.2 <;> rfl

/-- The listing of the data that is fed in these chunks. -/
def parsedListing (config : ParserConfig) (encoding : ListingEncoding)
    (path : ServerPath) (now : ℤ) (chunks : List (List UInt8)) :
    Option DirectoryListing :=
  match runCalls config (chunks.map .addData) (.initial encoding) with
  | none => none
  | some parser => parser.parse config path now

theorem initial_ready (encoding : ListingEncoding) :
    (ListingParser.initial encoding).Ready encoding :=
  { offset := offsetIn_zero _, started := fun _ => rfl, encoding := rfl }

/-- The listing is that of all data at once. -/
theorem parsedListing_chunks (hlib : config.lib.SetsDates)
    {encoding : ListingEncoding} (hencoding : encoding ≠ .unknown)
    (path : ServerPath) (now : ℤ) (chunks : List (List UInt8)) :
    ∃ listing, parsedListing config encoding path now chunks = some listing ∧
      parsedListing config encoding path now [chunks.flatten] = some listing := by
  rcases runCalls_outcome config hlib hencoding (initial_ready encoding) chunks
    with ⟨after, hrun, hafter, houtcome⟩
  rcases runCalls_outcome config hlib hencoding (initial_ready encoding)
    [chunks.flatten] with ⟨whole, hwhole, hready, hsame⟩
  rw [List.flatten_singleton, ← houtcome] at hsame
  rcases parse_outcome config hlib hencoding hafter path now with
    ⟨core, hcore, hparse⟩
  rcases parse_outcome config hlib hencoding hready path now with
    ⟨other, hother, hparsed⟩
  rw [hcore, hother] at hsame
  have hok := congrArg Prod.snd hsame
  simp only at hok
  have hcores := Option.some.inj (congrArg Prod.fst hsame)
  rw [hok, hcores] at hparsed
  unfold parsedListing
  rw [hrun, hwhole]
  exact ⟨_, hparse, hparsed⟩

/-- Two lines, the second of them cut apart. -/
def twoChunks : List (List UInt8) :=
  ["+r,\tx\r\n+r".toList, ",\ty\r\n".toList].map
    (List.map fun char => UInt8.ofNat char.toNat)

/-- The second name is read across the two reads. -/
theorem parsedListing_chunks_twoChunks :
    ∃ listing, parsedListing (civilConfig .unix) .normal (.blank .unix) 0
        twoChunks = some listing ∧
      parsedListing (civilConfig .unix) .normal (.blank .unix) 0
        [twoChunks.flatten] = some listing ∧
      listing.entries.map DirectoryEntry.name = [['x'], ['y']] := by
  obtain ⟨listing, hchunks, hwhole⟩ := parsedListing_chunks (civilConfig .unix)
    civilLibrary_setsDates (by decide : ListingEncoding.normal ≠ .unknown)
    (.blank .unix) 0 twoChunks
  have hnames : (parsedListing (civilConfig .unix) .normal (.blank .unix) 0
      twoChunks).map (fun listing => listing.entries.map DirectoryEntry.name) =
        some [['x'], ['y']] := by
    decide +kernel
  rw [hchunks, Option.map_some] at hnames
  exact ⟨listing, hchunks, hwhole, Option.some.inj hnames⟩

end TabFtp
