import TabFtp.CommandFraming

/-!
# Commands that are counted

A command that was sent has a reply that is pending.  Whether it was sent is
known from the reply of `CRealControlSocket::Send`, in which success and
every failure are numbers other than zero.
-/

namespace TabFtp

inductive WriteError
  | again
  | other (error : ℕ)

/-- What the layer below makes of a write. -/
inductive WriteResult
  | written (count : ℕ)
  | failed (error : WriteError)

/-- The layer took the bytes, or will take them later. -/
def WriteResult.Accepts (result : WriteResult) : Prop :=
  ∀ error, result ≠ .failed (.other error)

structure ControlConnection where
  activeLayer : Bool
  /-- what the layer has taken so far -/
  onWire : List UInt8
  sendBuffer : List UInt8
  waiting : Bool
  pendingReplies : ℕ
  measuringRtt : Bool
  deriving DecidableEq

namespace ControlConnection

def send (connection : ControlConnection) (buffer : List UInt8)
    (result : WriteResult) : Reply × ControlConnection :=
  if !connection.activeLayer then
    (Reply.internalerror, connection)
  else
    let connection := { connection with waiting := true }
    if !connection.sendBuffer.isEmpty then
      (Reply.wouldblock,
        { connection with sendBuffer := connection.sendBuffer ++ buffer })
    else
      match result with
      | .failed (.other _) =>
          (Reply.error ||| Reply.disconnected, connection)
      | .failed .again =>
          (Reply.wouldblock, { connection with sendBuffer := buffer })
      | .written count =>
          (Reply.wouldblock,
            { connection with
              onWire := connection.onWire ++ buffer.take count
              sendBuffer := buffer.drop count })

def sendCommand (connection : ControlConnection)
    (convert : WString → List UInt8) (str : WString) (measureRTT : Bool)
    (result : WriteResult) : Reply × ControlConnection :=
  let buffer := convert str
  if buffer.isEmpty then
    (Reply.error, connection)
  else
    let sent := connection.send (buffer ++ [cr, lf]) result
    -- the reply code becomes a truth value
    let res : Bool := sent.1 ≠ 0
    let connection := sent.2
    let connection :=
      if res then
        { connection with pendingReplies := connection.pendingReplies + 1 }
      else connection
    let connection :=
      if measureRTT then { connection with measuringRtt := true }
      else connection
    (if res then Reply.wouldblock else Reply.error, connection)

/-! ## What was sent -/

def Delivered (before after : ControlConnection) (command : List UInt8) :
    Prop :=
  after.onWire ++ after.sendBuffer =
    before.onWire ++ before.sendBuffer ++ command

/-- A reply is pending and `wouldblock` is returned exactly for a command
that was delivered; any other is an error, and a disconnect stays one. -/
def Accounted (connection : ControlConnection)
    (convert : WString → List UInt8) (str : WString) (measureRTT : Bool)
    (result : WriteResult) : Prop :=
  let command := convert str ++ [cr, lf]
  let outcome := connection.sendCommand convert str measureRTT result
  let reply := outcome.1
  let after := outcome.2
  ((after.pendingReplies = connection.pendingReplies + 1 ∧
      reply = Reply.wouldblock) ↔ connection.Delivered after command) ∧
  (¬connection.Delivered after command →
    after.pendingReplies = connection.pendingReplies ∧
      reply.has Reply.error = true ∧
      (convert str ≠ [] →
        (connection.send command result).1.has Reply.disconnected = true →
          reply.has Reply.disconnected = true))

variable {connection : ControlConnection} {convert : WString → List UInt8}
  {str : WString} {measureRTT : Bool} {result : WriteResult}

/-- A command is delivered, or an error tells that it is not. -/
theorem send_cases (connection : ControlConnection) (buffer : List UInt8)
    (result : WriteResult) :
    ((connection.send buffer result).1 = Reply.wouldblock ∧
      connection.Delivered (connection.send buffer result).2 buffer ∧
      connection.activeLayer = true ∧
      (connection.sendBuffer ≠ [] ∨ result.Accepts)) ∨
    ((connection.send buffer result).1.has Reply.error = true ∧
      (connection.send buffer result).2.onWire = connection.onWire ∧
      (connection.send buffer result).2.sendBuffer =
        connection.sendBuffer ∧
      ¬(connection.activeLayer = true ∧
        (connection.sendBuffer ≠ [] ∨ result.Accepts))) := by
  unfold send Delivered
  by_cases hlayer : connection.activeLayer = true
  · simp only [hlayer, Bool.not_true, Bool.false_eq_true, if_false]
    by_cases hempty : connection.sendBuffer = []
    · simp only [hempty, List.isEmpty_nil, Bool.not_true, Bool.false_eq_true,
        if_false]
      cases result with
      | written count =>
          left
          refine ⟨rfl, ?_, trivial, .inr ?_⟩
          · simp
          · intro error hfailed
            cases hfailed
      | failed error =>
          cases error with
          | again =>
              left
              refine ⟨rfl, ?_, trivial, .inr ?_⟩
              · simp
              · intro error hfailed
                cases hfailed
          | other error =>
              right
              have herror : (Reply.error ||| Reply.disconnected).has
                  Reply.error = true := by
                decide
              refine ⟨herror, rfl, rfl, ?_⟩
              intro haccepted
              rcases haccepted.2 with hqueued | haccepts
              · exact hqueued rfl
              · exact haccepts error rfl
    · left
      rw [if_pos (by simpa using hempty)]
      refine ⟨rfl, ?_, trivial, .inl hempty⟩
      simp
  · right
    have hlayer' : connection.activeLayer = false := by
      simpa using hlayer
    rw [if_pos (by simp [hlayer'])]
    have herror : Reply.internalerror.has Reply.error = true := by
      decide
    refine ⟨herror, rfl, rfl, ?_⟩
    intro haccepted
    exact hlayer haccepted.1

theorem send_ne_zero (connection : ControlConnection) (buffer : List UInt8)
    (result : WriteResult) : (connection.send buffer result).1 ≠ 0 := by
  rcases send_cases connection buffer result with hsent | hfailed
  · rw [hsent.1]
    decide
  · intro hzero
    rw [hzero] at hfailed
    exact absurd hfailed.1 (by decide)

theorem sendCommand_of_converted (hconverted : convert str ≠ []) :
    let sent := connection.send (convert str ++ [cr, lf]) result
    let outcome := connection.sendCommand convert str measureRTT result
    outcome.1 = Reply.wouldblock ∧
      outcome.2.pendingReplies = sent.2.pendingReplies + 1 ∧
      outcome.2.onWire = sent.2.onWire ∧
      outcome.2.sendBuffer = sent.2.sendBuffer := by
  dsimp only
  have hne := send_ne_zero connection (convert str ++ [cr, lf]) result
  unfold sendCommand
  rw [if_neg (by simpa using hconverted)]
  simp only [ne_eq, hne, not_false_eq_true, decide_true, if_true]
  cases measureRTT <;> exact ⟨trivial, rfl, rfl, rfl⟩

theorem send_pendingReplies (connection : ControlConnection)
    (buffer : List UInt8) (result : WriteResult) :
    (connection.send buffer result).2.pendingReplies =
      connection.pendingReplies := by
  unfold send
  dsimp only
  split
  · rfl
  · split
    · rfl
    · split <;> rfl

theorem not_delivered {before after : ControlConnection}
    {command : List UInt8} (hwire : after.onWire = before.onWire)
    (hbuffer : after.sendBuffer = before.sendBuffer) (hne : command ≠ []) :
    ¬before.Delivered after command := by
  intro hdelivered
  unfold Delivered at hdelivered
  rw [hwire, hbuffer] at hdelivered
  exact hne (List.self_eq_append_right.mp hdelivered)

theorem terminated_ne_nil (buffer : List UInt8) :
    buffer ++ [cr, lf] ≠ [] := by
  simp

theorem accounted_of_unconverted (hempty : convert str = []) :
    connection.Accounted convert str measureRTT result := by
  have houtcome :
      connection.sendCommand convert str measureRTT result =
        (Reply.error, connection) := by
    unfold sendCommand
    rw [hempty]
    rfl
  have hdelivered := @not_delivered connection connection
    (convert str ++ [cr, lf]) rfl rfl (terminated_ne_nil _)
  unfold Accounted
  rw [houtcome]
  constructor
  · constructor
    · intro hcounted
      have hcount : connection.pendingReplies =
          connection.pendingReplies + 1 := hcounted.1
      omega
    · intro hsent
      exact absurd hsent hdelivered
  · intro _
    refine ⟨rfl, ?_, ?_⟩
    · have herror : Reply.error.has Reply.error = true := by
        decide
      exact herror
    · intro hconverted
      exact absurd hempty hconverted

/-- Exactly when commands are counted right: the layer accepts the bytes, or
there are none. -/
theorem sendCommand_accounted_iff (connection : ControlConnection)
    (convert : WString → List UInt8) (str : WString) (measureRTT : Bool)
    (result : WriteResult) :
    connection.Accounted convert str measureRTT result ↔
      convert str = [] ∨ (connection.activeLayer = true ∧
        (connection.sendBuffer ≠ [] ∨ result.Accepts)) := by
  by_cases hempty : convert str = []
  · have haccounted := @accounted_of_unconverted connection convert str
      measureRTT result hempty
    exact ⟨fun _ => .inl hempty, fun _ => haccounted⟩
  · have houtcome := @sendCommand_of_converted connection convert str
      measureRTT result hempty
    dsimp only at houtcome
    rcases houtcome with ⟨hreply, hpending, hwire, hbuffer⟩
    rw [send_pendingReplies] at hpending
    rcases send_cases connection (convert str ++ [cr, lf]) result with
      hsent | hfailed
    · have hdelivered : connection.Delivered
          (connection.sendCommand convert str measureRTT result).2
          (convert str ++ [cr, lf]) := by
        unfold Delivered
        rw [hwire, hbuffer]
        exact hsent.2.1
      have haccounted :
          connection.Accounted convert str measureRTT result := by
        refine ⟨⟨fun _ => hdelivered, fun _ => ⟨hpending, hreply⟩⟩, ?_⟩
        intro hnot
        exact absurd hdelivered hnot
      exact ⟨fun _ => .inr hsent.2.2, fun _ => haccounted⟩
    · have hdelivered := @not_delivered connection
        (connection.sendCommand convert str measureRTT result).2
        (convert str ++ [cr, lf]) (hwire.trans hfailed.2.1)
        (hbuffer.trans hfailed.2.2.1) (terminated_ne_nil _)
      constructor
      · intro haccounted
        exact absurd (haccounted.1.mp ⟨hpending, hreply⟩) hdelivered
      · intro haccepted
        rcases haccepted with hconverted | haccepted
        · exact absurd hconverted hempty
        · exact absurd haccepted hfailed.2.2.2

/-- A write to a connection that was reset: nothing is sent or queued, but a
reply is pending. -/
theorem sendCommand_to_reset_connection :
    let connection : ControlConnection :=
      ⟨true, [], [], false, 0, false⟩
    let convert : WString → List UInt8 := asciiBytes
    let result := WriteResult.failed (.other 104)
    connection.sendCommand convert "NOOP".toList false result =
        (Reply.wouldblock, ⟨true, [], [], true, 1, false⟩) ∧
      (connection.send (asciiBytes "NOOP".toList ++ [cr, lf]) result).1 =
        Reply.error ||| Reply.disconnected ∧
      ¬connection.Accounted convert "NOOP".toList false result := by
  intro connection convert result
  have houtcome :
      connection.sendCommand convert "NOOP".toList false result =
        (Reply.wouldblock, ⟨true, [], [], true, 1, false⟩) := by
    decide +kernel
  refine ⟨houtcome, rfl, ?_⟩
  intro haccounted
  unfold Accounted at haccounted
  rw [houtcome] at haccounted
  have hdelivered := haccounted.1.mp ⟨rfl, rfl⟩
  exact absurd hdelivered (by unfold Delivered; decide +kernel)

end ControlConnection

end TabFtp
