import Mathlib.Tactic

/-!
# Frames of a header and a fixed number of lines

A stream is a sequence of frames.  A frame starts with one symbol that gives
its kind, and the kind says how many lines follow; each line is ended by the
stop symbol.  The position in such a stream is what has been read of the
frame that is not complete.
-/

namespace LineFrames

universe u v

structure Format (Kind : Type u) (Symbol : Type v) where
  stop : Symbol
  kindOf : Symbol → Option Kind
  lines : Kind → ℕ
  accepts : Kind → ℕ → List Symbol → Bool

structure Frame (Kind : Type u) (Symbol : Type v) where
  kind : Kind
  lines : List (List Symbol)

inductive Position (Kind : Type u) (Symbol : Type v)
  | idle
  | within (kind : Kind) (done : List (List Symbol)) (current : List Symbol)

/-- What a part of the stream comes to.  In the last two cases the frames
cannot be told any further. -/
inductive Scan (Kind : Type u) (Symbol : Type v)
  | running (frames : List (Frame Kind Symbol))
      (position : Position Kind Symbol)
  | unknown (frames : List (Frame Kind Symbol)) (header : Symbol)
  | refused (frames : List (Frame Kind Symbol))

variable {Kind : Type u} {Symbol : Type v}

def Position.current : Position Kind Symbol → List Symbol
  | .idle => []
  | .within _ _ current => current

def Scan.frames : Scan Kind Symbol → List (Frame Kind Symbol)
  | .running frames _ => frames
  | .unknown frames _ => frames
  | .refused frames => frames

def Scan.after (earlier : List (Frame Kind Symbol)) :
    Scan Kind Symbol → Scan Kind Symbol
  | .running frames position => .running (earlier ++ frames) position
  | .unknown frames header => .unknown (earlier ++ frames) header
  | .refused frames => .refused (earlier ++ frames)

def Scan.andThen (scan : Scan Kind Symbol)
    (next : Position Kind Symbol → Scan Kind Symbol) : Scan Kind Symbol :=
  match scan with
  | .running frames position => (next position).after frames
  | .unknown frames header => .unknown frames header
  | .refused frames => .refused frames

namespace Format

variable [DecidableEq Symbol] (format : Format Kind Symbol)

def advance (kind : Kind) (done : List (List Symbol)) :
    Scan Kind Symbol :=
  if done.length < format.lines kind then
    .running [] (.within kind done [])
  else .running [⟨kind, done⟩] .idle

def step : Position Kind Symbol → Symbol → Scan Kind Symbol
  | .idle, symbol =>
      match format.kindOf symbol with
      | none => .unknown [] symbol
      | some kind => format.advance kind []
  | .within kind done current, symbol =>
      if symbol = format.stop then
        if format.accepts kind done.length current then
          format.advance kind (done ++ [current])
        else .refused []
      else .running [] (.within kind done (current ++ [symbol]))

def run :
    Position Kind Symbol → List Symbol → Scan Kind Symbol
  | position, [] => .running [] position
  | position, symbol :: rest =>
      (format.step position symbol).andThen fun next => run next rest

/-- Read boundaries matter only for a line that is too long: what is read up
to a boundary must not leave more than `limit` symbols of a line. -/
def Framed (limit : ℕ) :
    Position Kind Symbol → List (List Symbol) → Prop
  | _, [] => True
  | position, chunk :: rest =>
      match format.run position chunk with
      | .running _ next =>
          next.current.length ≤ limit ∧ Framed limit next rest
      | .unknown _ _ => False
      | .refused _ => True

end Format

/-! ## Scans in sequence -/

@[simp] theorem Scan.after_nil (scan : Scan Kind Symbol) :
    scan.after [] = scan := by
  cases scan <;> rfl

theorem Scan.after_after
    (first second : List (Frame Kind Symbol)) (scan : Scan Kind Symbol) :
    (scan.after second).after first = scan.after (first ++ second) := by
  cases scan <;> simp [Scan.after]

theorem Scan.after_andThen
    (earlier : List (Frame Kind Symbol)) (scan : Scan Kind Symbol)
    (next : Position Kind Symbol → Scan Kind Symbol) :
    (scan.after earlier).andThen next = (scan.andThen next).after earlier := by
  cases scan with
  | running frames position =>
      exact (Scan.after_after earlier frames (next position)).symm
  | unknown frames header => rfl
  | refused frames => rfl

theorem Scan.andThen_assoc
    (scan : Scan Kind Symbol)
    (first second : Position Kind Symbol → Scan Kind Symbol) :
    (scan.andThen first).andThen second =
      scan.andThen fun position => (first position).andThen second := by
  cases scan with
  | running frames position =>
      exact Scan.after_andThen frames (first position) second
  | unknown frames header => rfl
  | refused frames => rfl

theorem Scan.andThen_eq_running
    {scan : Scan Kind Symbol}
    {next : Position Kind Symbol → Scan Kind Symbol}
    {frames : List (Frame Kind Symbol)} {position : Position Kind Symbol}
    (h : scan.andThen next = .running frames position) :
    ∃ early late middle,
      scan = .running early middle ∧ next middle = .running late position ∧
        frames = early ++ late := by
  cases scan with
  | running early middle =>
      cases hnext : next middle with
      | running late final =>
          simp only [Scan.andThen, hnext, Scan.after] at h
          injection h with hframes hposition
          subst hframes hposition
          exact ⟨early, late, middle, rfl, hnext, rfl⟩
      | unknown late header => simp [Scan.andThen, hnext, Scan.after] at h
      | refused late => simp [Scan.andThen, hnext, Scan.after] at h
  | unknown early header => cases h
  | refused early => cases h

namespace Format

variable [DecidableEq Symbol] (format : Format Kind Symbol)

theorem run_append
    (position : Position Kind Symbol) (first second : List Symbol) :
    format.run position (first ++ second) =
      (format.run position first).andThen
        fun next => format.run next second := by
  induction first generalizing position with
  | nil => exact (Scan.after_nil _).symm
  | cons symbol rest ih =>
      have hrest :
          (fun next => format.run next (rest ++ second)) =
            fun next =>
              (format.run next rest).andThen
                fun last => format.run last second := by
        funext next
        exact ih next
      calc
        format.run position (symbol :: rest ++ second) =
            (format.step position symbol).andThen
              fun next => format.run next (rest ++ second) := rfl
        _ = ((format.step position symbol).andThen
              fun next => format.run next rest).andThen
                fun last => format.run last second := by
              rw [hrest, Scan.andThen_assoc]

/-! ## Reading back what was written -/

theorem run_text
    (kind : Kind) (done : List (List Symbol)) (current : List Symbol)
    {text : List Symbol} (htext : format.stop ∉ text) :
    format.run (.within kind done current) text =
      .running [] (.within kind done (current ++ text)) := by
  induction text generalizing current with
  | nil => simp [run]
  | cons symbol rest ih =>
      have hsymbol : symbol ≠ format.stop := by
        intro heq
        exact htext (heq ▸ List.mem_cons_self)
      have hrest : format.stop ∉ rest := by
        intro hmem
        exact htext (List.mem_cons_of_mem symbol hmem)
      simp only [run, step, if_neg hsymbol, Scan.andThen]
      rw [ih (current ++ [symbol]) hrest]
      simp [Scan.after]

theorem run_line
    (kind : Kind) (done : List (List Symbol)) (current : List Symbol)
    {text : List Symbol} (htext : format.stop ∉ text)
    (haccepts :
      format.accepts kind done.length (current ++ text) = true) :
    format.run (.within kind done current) (text ++ [format.stop]) =
      format.advance kind (done ++ [current ++ text]) := by
  rw [run_append, run_text format kind done current htext]
  simp only [Scan.andThen, run, step, if_pos, haccepts, Scan.after_nil]
  cases format.advance kind (done ++ [current ++ text]) <;>
    simp [Scan.after]

def encodeLines (lines : List (List Symbol)) : List Symbol :=
  lines.flatMap fun line => line ++ [format.stop]

/-- A frame that can be written: the number of lines is the one that its kind
has, and no line contains the stop symbol. -/
structure Writable (frame : Frame Kind Symbol) : Prop where
  length_eq : frame.lines.length = format.lines frame.kind
  stop_not_mem : ∀ line ∈ frame.lines, format.stop ∉ line
  accepted :
    ∀ (i : ℕ) (line : List Symbol), frame.lines[i]? = some line →
      format.accepts frame.kind i line = true

theorem run_lines
    {kind : Kind} (rest done : List (List Symbol))
    (hwritable : format.Writable ⟨kind, done ++ rest⟩)
    (hrest : rest ≠ []) :
    format.run (.within kind done []) (format.encodeLines rest) =
      .running [⟨kind, done ++ rest⟩] .idle := by
  induction rest generalizing done with
  | nil => exact absurd rfl hrest
  | cons line rest ih =>
      have hlength := hwritable.length_eq
      simp only [List.length_append, List.length_cons] at hlength
      have hstop : format.stop ∉ line :=
        hwritable.stop_not_mem line (by simp)
      have haccepts : format.accepts kind done.length ([] ++ line) = true :=
        hwritable.accepted done.length line (by simp)
      have hencode :
          format.encodeLines (line :: rest) =
            (line ++ [format.stop]) ++ format.encodeLines rest := rfl
      rw [hencode, run_append, run_line format kind done [] hstop haccepts]
      cases rest with
      | nil =>
          have hdone : ¬ (done ++ [line]).length < format.lines kind := by
            simp only [List.length_append, List.length_cons,
              List.length_nil] at hlength ⊢
            omega
          rw [List.nil_append, advance, if_neg hdone]
          rfl
      | cons next rest =>
          have hmore : (done ++ [line]).length < format.lines kind := by
            simp only [List.length_append, List.length_cons,
              List.length_nil] at hlength ⊢
            omega
          have hsplit :
              done ++ line :: next :: rest =
                (done ++ [line]) ++ next :: rest := by simp
          rw [hsplit] at hwritable ⊢
          simp only [advance, List.nil_append, if_pos hmore, Scan.andThen,
            ih (done ++ [line]) hwritable (List.cons_ne_nil _ _),
            Scan.after_nil]

theorem run_frame
    {header : Symbol} {frame : Frame Kind Symbol}
    (hkind : format.kindOf header = some frame.kind)
    (hwritable : format.Writable frame) :
    format.run .idle (header :: format.encodeLines frame.lines) =
      .running [frame] .idle := by
  have hlength := hwritable.length_eq
  simp only [run, step, hkind]
  by_cases hempty : frame.lines = []
  · have hnone : ¬ 0 < format.lines frame.kind := by
      rw [← hlength, hempty]
      exact lt_irrefl 0
    have hframe : frame = ⟨frame.kind, []⟩ := by
      cases frame
      exact congrArg _ hempty
    rw [hempty]
    simp only [advance, List.length_nil, if_neg hnone, Scan.andThen,
      encodeLines, List.flatMap_nil, run, Scan.after, List.append_nil]
    rw [← hframe]
  · have hsome : 0 < format.lines frame.kind := by
      rw [← hlength]
      exact List.length_pos_iff.mpr hempty
    simp only [advance, List.length_nil, if_pos hsome, Scan.andThen]
    rw [run_lines format frame.lines [] hwritable hempty]
    rfl

theorem run_frames
    (header : Kind → Symbol)
    (hheader : ∀ kind, format.kindOf (header kind) = some kind)
    {frames : List (Frame Kind Symbol)}
    (hwritable : ∀ frame ∈ frames, format.Writable frame) :
    format.run .idle
        (frames.flatMap fun frame =>
          header frame.kind :: format.encodeLines frame.lines) =
      .running frames .idle := by
  induction frames with
  | nil => rfl
  | cons frame frames ih =>
      rw [List.flatMap_cons, run_append,
        run_frame format (hheader frame.kind)
          (hwritable frame List.mem_cons_self)]
      simp only [Scan.andThen]
      rw [ih fun other hmem =>
        hwritable other (List.mem_cons_of_mem frame hmem)]
      rfl

/-! ## The unfinished line -/

theorem current_extended
    {kind : Kind} {done : List (List Symbol)} {current text : List Symbol}
    {frames : List (Frame Kind Symbol)}
    (hrun :
      format.run (.within kind done current) text = .running frames .idle) :
    (∃ more, ∀ line ∈ done ++ [current ++ more],
      ∃ frame ∈ frames, line ∈ frame.lines) := by
  induction text generalizing done current frames with
  | nil => cases hrun
  | cons symbol rest ih =>
      rcases Scan.andThen_eq_running hrun with
        ⟨early, late, middle, hstep, hrest, rfl⟩
      simp only [step] at hstep
      by_cases hstop : symbol = format.stop
      · rw [if_pos hstop] at hstep
        by_cases haccepts : format.accepts kind done.length current = true
        · rw [if_pos haccepts, advance] at hstep
          refine ⟨[], ?_⟩
          rw [List.append_nil]
          by_cases hmore :
              (done ++ [current]).length < format.lines kind
          · rw [if_pos hmore] at hstep
            injection hstep with hearly hmiddle
            subst hearly hmiddle
            rcases ih hrest with ⟨more, hlines⟩
            intro line hline
            exact hlines line (List.mem_append_left _ hline)
          · rw [if_neg hmore] at hstep
            injection hstep with hearly hmiddle
            subst hearly hmiddle
            intro line hline
            exact ⟨⟨kind, done ++ [current]⟩, by simp, hline⟩
        · rw [if_neg haccepts] at hstep
          cases hstep
      · rw [if_neg hstop] at hstep
        injection hstep with hearly hmiddle
        subst hearly hmiddle
        rcases ih hrest with ⟨more, hlines⟩
        refine ⟨symbol :: more, ?_⟩
        rw [← List.append_cons] at hlines
        exact hlines

theorem current_length_le
    {limit : ℕ} {position : Position Kind Symbol} {text : List Symbol}
    {frames : List (Frame Kind Symbol)}
    (hrun : format.run position text = .running frames .idle)
    (hshort :
      ∀ frame ∈ frames, ∀ line ∈ frame.lines, line.length ≤ limit) :
    position.current.length ≤ limit := by
  cases position with
  | idle => exact Nat.zero_le limit
  | within kind done current =>
      rcases current_extended format hrun with ⟨more, hlines⟩
      rcases hlines (current ++ more) (by simp) with ⟨frame, hmem, hline⟩
      have hbound := hshort frame hmem _ hline
      rw [List.length_append] at hbound
      exact (Nat.le_add_right _ _).trans hbound

/-- Short lines are framed, however they are cut. -/
theorem framed_of_run
    {limit : ℕ} (chunks : List (List Symbol))
    {position : Position Kind Symbol} {frames : List (Frame Kind Symbol)}
    (hrun : format.run position chunks.flatten = .running frames .idle)
    (hshort :
      ∀ frame ∈ frames, ∀ line ∈ frame.lines, line.length ≤ limit) :
    format.Framed limit position chunks := by
  induction chunks generalizing position frames with
  | nil => trivial
  | cons chunk rest ih =>
      rw [List.flatten_cons, run_append] at hrun
      rcases Scan.andThen_eq_running hrun with
        ⟨early, late, middle, hchunk, hrest, rfl⟩
      have hlate :
          ∀ frame ∈ late, ∀ line ∈ frame.lines, line.length ≤ limit :=
        fun frame hmem => hshort frame (List.mem_append_right early hmem)
      simp only [Framed, hchunk]
      exact ⟨current_length_le format hrest hlate, ih hrest hlate⟩

theorem Framed.append
    {limit : ℕ} {first second : List (List Symbol)}
    {position middle : Position Kind Symbol}
    {frames : List (Frame Kind Symbol)}
    (hframed : format.Framed limit position (first ++ second))
    (hrun : format.run position first.flatten = .running frames middle) :
    format.Framed limit position first ∧
      format.Framed limit middle second := by
  induction first generalizing position frames with
  | nil =>
      injection hrun with _ hposition
      subst hposition
      exact ⟨trivial, hframed⟩
  | cons chunk rest ih =>
      rw [List.flatten_cons, run_append] at hrun
      rcases Scan.andThen_eq_running hrun with
        ⟨early, late, next, hchunk, hrest, -⟩
      simp only [List.cons_append, Framed, hchunk] at hframed ⊢
      rcases ih hframed.2 hrest with ⟨hfirst, hsecond⟩
      exact ⟨⟨hframed.1, hfirst⟩, hsecond⟩

end Format

end LineFrames
