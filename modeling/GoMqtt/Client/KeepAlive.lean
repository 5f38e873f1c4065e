import GoMqtt.Client.Receiver

namespace GoMqtt

open GoMqtt.Packet GoMqtt.Machine

namespace Client

variable {c : Client}

theorem step_receive_pingresp (hp : c.processing = true) (hf : c.first = false)
    (ho : c.conn.isOpen = true) (hn : c.connack = none) :
    c.step (.receive .pingresp) = { c with pings := c.pings - 1 } :=
  step_receive_of_handle .pingresp hp hf ho hn rfl

theorem pinger_of_pending (hp : c.pinging = true) (hd : c.dying = false) (h : 0 < c.pings) :
    c.pinger = (c.die .clientMissingPong true false).1.pingerReturns
      (c.die .clientMissingPong true false).2 := by
  simp [pinger, hp, hd, h]

theorem pinger_of_idle (hp : c.pinging = true) (hd : c.dying = false) (hz : c.pings = 0)
    (ho : c.conn.isOpen = true) :
    c.pinger = { c with conn := { c.conn with sent := c.conn.sent ++ [.pingreq] }, pings := 1 } := by
  simp [pinger, hp, hd, hz, send_of_isOk, ho, (Encoder.write_naked_isOk []).1]

theorem unsolicited_pingresp_reports_missing_pong (c : Client) (hp : c.processing = true)
    (hf : c.first = false) (ho : c.conn.isOpen = true) (hn : c.connack = none) (hpi : c.pinging = true)
    (hd : c.dying = false) (hfin : c.finished = false) (hcb : c.callback.isSome = true)
    (hz : c.pings = 0) :
    (c.step (.receive .pingresp)).pings = 255 ∧
      ((c.step (.receive .pingresp)).step .keepAlive).errors = c.errors ++ [.clientMissingPong] := by
  rw [step_receive_pingresp hp hf ho hn, hz]
  refine ⟨rfl, ?_⟩
  -- the count wrapped to 255, so the next window finds a ping pending
  have hpending : (0 : UInt8) < 0 - 1 := by decide
  rw [step, pinger_of_pending (c := { c with pings := 0 - 1 }) hpi hd hpending, pingerReturns,
    die_fst]
  simp [hfin, hcb]

theorem unsolicited_pingresp_on_connected :
    connectedClient.processing = true ∧ connectedClient.first = false ∧
      connectedClient.conn.isOpen = true ∧ connectedClient.connack = none ∧
      connectedClient.pinging = true ∧ connectedClient.dying = false ∧ connectedClient.finished = false ∧
      connectedClient.callback.isSome = true ∧ connectedClient.pings = 0 ∧
      (connectedClient.step (.receive .pingresp)).pings = 255 ∧
      ((connectedClient.step (.receive .pingresp)).step .keepAlive).errors =
        connectedClient.errors ++ [.clientMissingPong] :=
  ⟨by decide, by decide, by decide, by decide, by decide, by decide, by decide, by decide, by decide,
    unsolicited_pingresp_reports_missing_pong _ (by decide) (by decide) (by decide) (by decide)
      (by decide) (by decide) (by decide) (by decide) (by decide)⟩

end Client

end GoMqtt
