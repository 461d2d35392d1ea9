import Tepegoz.RemotePane

namespace Tepegoz

open Transition Broadcast

/-- The messages on which `drive_channel` leaves its loop. -/
def ChannelMsg.stops : ChannelMsg → Bool
  | .close | .eof | .ended => true
  | _ => false

/-- The messages after which the server sends nothing more on the channel. -/
def ChannelMsg.closes : ChannelMsg → Bool
  | .close | .ended => true
  | _ => false

def beforeEof (msgs : List ChannelMsg) : List ChannelMsg := msgs.takeWhile fun m => !m.stops

def beforeClose (msgs : List ChannelMsg) : List ChannelMsg := msgs.takeWhile fun m => !m.closes

def ChannelMsg.dataOf (msgs : List ChannelMsg) : Bytes :=
  msgs.flatMap fun
    | .data bytes | .extendedData bytes _ => bytes
    | _ => []

/-- The exit status a list of messages leaves behind: a later one replaces an earlier one. -/
def ChannelMsg.lastStatus (msgs : List ChannelMsg) : Option UInt32 :=
  (msgs.filterMap fun
    | .exitStatus status => some status
    | _ => none).getLast?

def RemoteAct.taken : RemoteAct → List ChannelMsg
  | .message msg => [msg]
  | _ => []

/-- The remote pane, seen through what `channel.wait()` has yielded. -/
def remoteTap : System RemotePane RemoteAct ChannelMsg where
  init s := ∃ rows cols, s = .spawn rows cols
  step s a := (s.next a).map (·, a.taken)

def failedWrite : Bool → List RemotePaneCmd → Bool
  | false, .data _ :: _ => true
  | _, _ => false

/-- No `ClosePane`, no dropped command sender, no failed write. -/
def Undisturbed : List ChannelMsg → RemotePane → RemoteAct → Prop
  | _, s, .command written => failedWrite written s.commands = false
  | _, _, .hangUp | _, _, .close => False
  | _, _, _ => True

instance (tr : List ChannelMsg) (s : RemotePane) : (a : RemoteAct) → Decidable (Undisturbed tr s a)
  | .command _ => inferInstanceAs (Decidable (_ = _))
  | .hangUp | .close => .isFalse id
  | .message _ | .driver | .sendInput _ | .resize _ _ | .forward _ | .abandon _ => .isTrue trivial

/-- The driver is still in its loop. -/
def DriverPc.turning : DriverPc → Bool
  | .waiting | .got _ | .locked _ | .appended _ | .unlocked _ => true
  | _ => false

/-- The last update is the exit notice with this status, after the data received before Close. -/
def RemotePane.ReportsExit (s : RemotePane) (msgs : List ChannelMsg) (status : UInt32) : Prop :=
  ∃ before, s.core.channel.sent = before ++ [.exit (some (asI32 status))] ∧
    bytesOf before = ChannelMsg.dataOf (beforeClose msgs)

namespace ChannelMsg

@[simp] theorem dataOf_snoc (msgs : List ChannelMsg) (msg : ChannelMsg) :
    dataOf (msgs ++ [msg]) = dataOf msgs ++ dataOf [msg] := by
  simp [dataOf]

theorem lastStatus_snoc (msgs : List ChannelMsg) (msg : ChannelMsg) :
    lastStatus (msgs ++ [msg]) = (lastStatus [msg]).or (lastStatus msgs) := by
  cases msg <;> simp [lastStatus]

theorem dataOf_stops {msg : ChannelMsg} (h : msg.stops = true) : dataOf [msg] = [] := by
  cases msg <;> first | rfl | simp [stops] at h

theorem lastStatus_stops {msg : ChannelMsg} (h : msg.stops = true) : lastStatus [msg] = none := by
  cases msg <;> first | rfl | simp [stops] at h

/-- What was taken up to the first stop is what came before it. -/
theorem beforeEof_of_prefix {pre msgs : List ChannelMsg} {msg : ChannelMsg}
    (hpre : ∀ m ∈ pre, m.stops = false) (hm : msg.stops = true)
    (h : pre ++ [msg] <+: msgs ++ [.ended]) : beforeEof msgs = pre := by
  have hall : beforeEof (msgs ++ [.ended]) = pre := by
    obtain ⟨rest, hrest⟩ := h
    rw [← hrest, beforeEof, List.append_assoc,
      List.takeWhile_append_of_pos (by simpa using hpre)]
    simp [hm]
  rw [← hall, beforeEof, beforeEof, List.takeWhile_append]
  split
  next hlen =>
    rw [(List.takeWhile_prefix _).eq_of_length hlen]
    simp [stops]
  next => rfl

end ChannelMsg

theorem asI32_injective {m n : UInt32} (h : asI32 m = asI32 n) : m = n :=
  UInt32.toBitVec_inj.mp (BitVec.toInt_inj.mp h)

/-- The account of an undisturbed driver, against the messages it has taken. -/
structure RemotePane.Tap (tr : List ChannelMsg) (s : RemotePane) : Prop where
  commands : RemotePaneCmd.close ∉ s.commands
  data : bytesOf s.core.channel.sent ++ s.driver.inFlight = ChannelMsg.dataOf tr
  status : s.core.exitCode = (ChannelMsg.lastStatus tr).map asI32
  turning : s.driver.turning = true → ∀ m ∈ tr, m.stops = false
  stopped : s.driver.turning = false →
    ∃ pre m, tr = pre ++ [m] ∧ m.stops = true ∧ ∀ m ∈ pre, m.stops = false
  exiting : ∀ code, s.driver = .exiting code → code = s.core.exitCode
  ended : s.driver = .ended → ∃ before, s.core.channel.sent = before ++ [.exit s.core.exitCode]

namespace RemotePane

variable {tr : List ChannelMsg} {s s' : RemotePane}

theorem tap_spawn (rows cols : Nat) : Tap [] (spawn rows cols) where
  commands := by simp [spawn]
  data := rfl
  status := rfl
  turning := by simp
  stopped := by simp [spawn, DriverPc.turning]
  exiting := by simp [spawn]
  ended := by simp [spawn]

/-- What does not concern the account: the size, the queued writes, the forwarders. -/
theorem Tap.congr {core : PaneCore} {commands : List RemotePaneCmd} (h : Tap tr s)
    (hsent : core.channel.sent = s.core.channel.sent) (hcode : core.exitCode = s.core.exitCode)
    (hcmd : RemotePaneCmd.close ∉ commands) : Tap tr ⟨core, commands, s.driver⟩ where
  commands := hcmd
  data := by rw [hsent]; exact h.data
  status := hcode.trans h.status
  turning := h.turning
  stopped := h.stopped
  exiting := by rw [hcode]; exact h.exiting
  ended := by rw [hsent, hcode]; exact h.ended

/-- A message that keeps the driver in its loop. -/
theorem Tap.turns {msg : ChannelMsg} {core : PaneCore} {driver : DriverPc} (h : Tap tr s)
    (hw : s.driver = .waiting) (hm : msg.stops = false) (hd : driver.turning = true)
    (hsent : core.channel = s.core.channel) (hdata : driver.inFlight = ChannelMsg.dataOf [msg])
    (hcode : core.exitCode = ((ChannelMsg.lastStatus [msg]).map asI32).or s.core.exitCode) :
    Tap (tr ++ [msg]) ⟨core, s.commands, driver⟩ where
  commands := h.commands
  data := by
    have hbefore : bytesOf s.core.channel.sent = ChannelMsg.dataOf tr := by
      simpa [hw, DriverPc.inFlight] using h.data
    rw [ChannelMsg.dataOf_snoc, hsent, hdata, hbefore]
  status := by
    rw [ChannelMsg.lastStatus_snoc, hcode, h.status]
    exact Option.map_or.symm
  turning := by
    intro _ m hmem
    rcases List.mem_append.mp hmem with hmem | hmem
    · exact h.turning (by rw [hw]; rfl) m hmem
    · rwa [List.mem_singleton.mp hmem]
  stopped := by simp [hd]
  exiting := by rintro code rfl; simp [DriverPc.turning] at hd
  ended := by rintro rfl; simp [DriverPc.turning] at hd

/-- A message on which the driver leaves its loop. -/
theorem Tap.stop {msg : ChannelMsg} (h : Tap tr s) (hw : s.driver = .waiting)
    (hm : msg.stops = true) : Tap (tr ++ [msg]) { s with driver := .left } where
  commands := h.commands
  data := by
    have hdata := h.data
    rw [hw] at hdata
    rw [ChannelMsg.dataOf_snoc, ChannelMsg.dataOf_stops hm, List.append_nil]
    exact hdata
  status := by
    rw [ChannelMsg.lastStatus_snoc, ChannelMsg.lastStatus_stops hm]
    exact h.status
  turning := by simp [DriverPc.turning]
  stopped := fun _ => ⟨tr, msg, rfl, hm, h.turning (by rw [hw]; rfl)⟩
  exiting := by simp
  ended := by simp

theorem Tap.onMessage (h : Tap tr s) (hw : s.driver = .waiting) (msg : ChannelMsg) :
    Tap (tr ++ [msg]) (s.onMessage msg) := by
  cases msg with
  | data bytes => exact h.turns hw rfl rfl rfl (List.append_nil _).symm rfl
  | extendedData bytes ext => exact h.turns hw rfl rfl rfl (List.append_nil _).symm rfl
  | exitStatus status => exact h.turns hw rfl (by rw [hw]; rfl) rfl (by rw [hw]; rfl) rfl
  | other => exact h.turns hw rfl (by rw [hw]; rfl) rfl (by rw [hw]; rfl) rfl
  | close => exact h.stop hw rfl
  | eof => exact h.stop hw rfl
  | ended => exact h.stop hw rfl

theorem Tap.onCommand {written : Bool} {cmd : RemotePaneCmd} {rest : List RemotePaneCmd}
    (h : Tap tr s) (hc : s.commands = cmd :: rest) (hok : failedWrite written s.commands = false) :
    Tap tr ({ s with commands := rest }.onCommand written cmd) := by
  have hcmd := h.commands
  rw [hc, List.mem_cons, not_or] at hcmd
  rw [hc] at hok
  cases cmd with
  | data bytes =>
    cases written with
    | true => exact h.congr rfl rfl hcmd.2
    | false => simp [failedWrite] at hok
  | resize rows cols => exact h.congr rfl rfl hcmd.2
  | close => exact absurd rfl hcmd.1

/-- The driver moves the chunk in hand on, inside its loop. -/
theorem Tap.goesOn {core : PaneCore} {driver : DriverPc} (h : Tap tr s)
    (hd : s.driver.turning = true) (hd' : driver.turning = true)
    (hdata : bytesOf core.channel.sent ++ driver.inFlight =
      bytesOf s.core.channel.sent ++ s.driver.inFlight)
    (hcode : core.exitCode = s.core.exitCode) : Tap tr ⟨core, s.commands, driver⟩ where
  commands := h.commands
  data := hdata.trans h.data
  status := hcode.trans h.status
  turning := fun _ => h.turning hd
  stopped := by simp [hd']
  exiting := by rintro code rfl; simp [DriverPc.turning] at hd'
  ended := by rintro rfl; simp [DriverPc.turning] at hd'

/-- The driver's own steps take no message: they move the chunk in hand to the channel, and after
the loop the exit code. -/
theorem Tap.driverStep (h : Tap tr s) (hs : s.driverStep = some s') : Tap tr s' := by
  have hdata := h.data
  have hstop := h.stopped
  unfold RemotePane.driverStep at hs
  split at hs
  next chunk hd =>
    obtain ⟨core, hc, hs⟩ := Option.bind_eq_some_iff.mp hs
    obtain rfl := Option.some.inj hs
    obtain ⟨-, rfl⟩ := PaneCore.lockBy_some hc
    exact h.goesOn (by rw [hd]; rfl) rfl (by rw [hd]; rfl) rfl
  next chunk hd =>
    obtain rfl := Option.some.inj hs
    exact h.goesOn (by rw [hd]; rfl) rfl (by rw [hd]; rfl) rfl
  next chunk hd =>
    obtain rfl := Option.some.inj hs
    exact h.goesOn (by rw [hd]; rfl) rfl (by rw [hd]; rfl) rfl
  next chunk hd =>
    obtain rfl := Option.some.inj hs
    refine h.goesOn (by rw [hd]; rfl) rfl ?_ rfl
    simp [hd, PaneCore.broadcast, DriverPc.inFlight]
  next hd =>
    obtain rfl := Option.some.inj hs
    rw [hd] at hdata hstop
    exact ⟨h.commands, hdata, h.status, by simp [DriverPc.turning], hstop, by simp, by simp⟩
  next hd =>
    obtain rfl := Option.some.inj hs
    rw [hd] at hdata hstop
    exact ⟨h.commands, hdata, h.status, by simp [DriverPc.turning], hstop, by simp, by simp⟩
  next code hd =>
    obtain rfl := Option.some.inj hs
    have hcode := h.exiting code hd
    rw [hd] at hdata hstop
    refine ⟨h.commands, ?_, h.status, by simp [DriverPc.turning], hstop, by simp, fun _ => ?_⟩
    · simpa [PaneCore.broadcast, DriverPc.inFlight] using hdata
    · exact ⟨s.core.channel.sent, by rw [hcode]; rfl⟩
  next => simp at hs
  next => simp at hs

theorem Tap.step {a : RemoteAct} (h : Tap tr s) (hok : Undisturbed tr s a)
    (hs : s.next a = some s') : Tap (tr ++ a.taken) s' := by
  cases a with
  | message msg =>
    simp only [RemotePane.next, Option.ite_none_right_eq_some, Option.some.injEq] at hs
    obtain ⟨⟨hw, -⟩, rfl⟩ := hs
    exact h.onMessage hw msg
  | command written =>
    simp only [RemoteAct.taken, List.append_nil]
    simp only [RemotePane.next] at hs
    split at hs
    next cmd rest hc =>
      simp only [Option.ite_none_right_eq_some, Option.some.injEq] at hs
      obtain ⟨-, rfl⟩ := hs
      exact h.onCommand hc hok
    next => simp at hs
  | hangUp => exact hok.elim
  | driver =>
    simp only [RemoteAct.taken, List.append_nil]
    exact h.driverStep hs
  | sendInput bytes =>
    simp only [RemoteAct.taken, List.append_nil]
    simp only [RemotePane.next, Option.ite_none_left_eq_some, Option.some.injEq] at hs
    obtain ⟨-, rfl⟩ := hs
    exact h.congr rfl rfl (by simpa using h.commands)
  | resize rows cols =>
    simp only [RemoteAct.taken, List.append_nil]
    simp only [RemotePane.next] at hs
    split at hs
    next => cases Option.some.inj hs; exact h.congr rfl rfl h.commands
    next => cases Option.some.inj hs; exact h.congr rfl rfl (by simpa using h.commands)
  | close => exact hok.elim
  | forward k =>
    simp only [RemoteAct.taken, List.append_nil]
    obtain ⟨core, hc, hs⟩ := Option.bind_eq_some_iff.mp hs
    cases Option.some.inj hs
    obtain ⟨f, lock, rfl, -⟩ := PaneCore.forward_frame hc
    exact h.congr rfl rfl h.commands
  | abandon k =>
    simp only [RemoteAct.taken, List.append_nil]
    obtain ⟨core, hc, hs⟩ := Option.bind_eq_some_iff.mp hs
    cases Option.some.inj hs
    obtain rfl := PaneCore.abandon_frame hc
    exact h.congr rfl rfl h.commands

theorem tap_of_run (h : Run remoteTap Undisturbed tr s) : Tap tr s := by
  refine h.invariant (I := Tap) ?_ ?_
  · rintro _ ⟨rows, cols, rfl⟩
    exact tap_spawn rows cols
  · intro tr s a s' out _ hi hok hs
    obtain ⟨t, ht, he⟩ := Option.map_eq_some_iff.mp hs
    obtain ⟨rfl, rfl⟩ := Prod.mk.inj he
    exact hi.step hok ht

/-- Between two turns, with nobody in the driver's way. -/
structure Resting (s : RemotePane) : Prop where
  waiting : s.driver = .waiting
  idle : s.commands = []
  free : s.core.lock = none

theorem run_next {a : RemoteAct} (h : Run remoteTap Undisturbed tr s) (hok : Undisturbed tr s a)
    (hs : s.next a = some s') : Run remoteTap Undisturbed (tr ++ a.taken) s' :=
  h.next hok (by simp [remoteTap, hs])

theorem run_driver (h : Run remoteTap Undisturbed tr s) (hs : s.driverStep = some s') :
    Run remoteTap Undisturbed tr s' := by
  simpa [RemoteAct.taken] using run_next (a := .driver) h trivial hs

theorem run_to_end (h : Run remoteTap Undisturbed tr s) (hd : s.driver = .left) :
    ∃ t, Run remoteTap Undisturbed tr t ∧ t.driver = .ended := by
  have hleft := run_driver h (by rw [driverStep, hd])
  have hmarked := run_driver hleft (by rw [driverStep])
  exact ⟨_, run_driver hmarked (by rw [driverStep]), rfl⟩

theorem run_chunk {chunk : Bytes} (h : Run remoteTap Undisturbed tr s) (hd : s.driver = .got chunk)
    (hc : s.commands = []) (hl : s.core.lock = none) :
    ∃ t, Run remoteTap Undisturbed tr t ∧ t.Resting := by
  have hlocked := run_driver h (by rw [driverStep, hd, PaneCore.lockBy, if_pos hl]; rfl)
  have happended := run_driver hlocked (by rw [driverStep])
  have hunlocked := run_driver happended (by rw [driverStep])
  exact ⟨_, run_driver hunlocked rfl, rfl, hc, rfl⟩

/-- A resting driver takes the next message, and rests again or comes to its end. -/
theorem run_message (msg : ChannelMsg) (h : Run remoteTap Undisturbed tr s) (hr : s.Resting) :
    ∃ t, Run remoteTap Undisturbed (tr ++ [msg]) t ∧
      (msg.stops = false ∧ t.Resting ∨ msg.stops = true ∧ t.driver = .ended) := by
  have htake := run_next (a := .message msg) h trivial (if_pos ⟨hr.waiting, hr.idle⟩)
  have hstop : msg.stops = true → s.onMessage msg = { s with driver := .left } →
      ∃ t, Run remoteTap Undisturbed (tr ++ [msg]) t ∧
        (msg.stops = false ∧ t.Resting ∨ msg.stops = true ∧ t.driver = .ended) := by
    intro hm he
    rw [he] at htake
    obtain ⟨t, ht, hd⟩ := run_to_end htake rfl
    exact ⟨t, ht, .inr ⟨hm, hd⟩⟩
  cases msg with
  | data bytes =>
    obtain ⟨t, ht, hrest⟩ := run_chunk htake rfl hr.idle hr.free
    exact ⟨t, ht, .inl ⟨rfl, hrest⟩⟩
  | extendedData bytes ext =>
    obtain ⟨t, ht, hrest⟩ := run_chunk htake rfl hr.idle hr.free
    exact ⟨t, ht, .inl ⟨rfl, hrest⟩⟩
  | exitStatus status => exact ⟨_, htake, .inl ⟨rfl, hr.waiting, hr.idle, hr.free⟩⟩
  | other => exact ⟨_, htake, .inl ⟨rfl, hr⟩⟩
  | close => exact hstop rfl rfl
  | eof => exact hstop rfl rfl
  | ended => exact hstop rfl rfl

theorem run_messages (msgs : List ChannelMsg) (h : Run remoteTap Undisturbed tr s)
    (hr : s.Resting) (hm : ∃ m ∈ msgs, m.stops = true) :
    ∃ taken t, Run remoteTap Undisturbed (tr ++ taken) t ∧ taken <+: msgs ∧ t.driver = .ended := by
  induction msgs generalizing tr s with
  | nil => simp at hm
  | cons msg msgs ih =>
    obtain ⟨t, ht, ⟨hgo, hrest⟩ | ⟨-, hd⟩⟩ := run_message msg h hr
    · have hlater : ∃ m ∈ msgs, m.stops = true := by
        simpa [hgo] using hm
      obtain ⟨taken, t', ht', hp, hd⟩ := ih ht hrest hlater
      refine ⟨msg :: taken, t', by simpa using ht', ?_, hd⟩
      exact List.cons_prefix_cons.mpr ⟨rfl, hp⟩
    · exact ⟨[msg], t, ht, ⟨msgs, rfl⟩, hd⟩

/-- What a driver has sent when it has ended: the data before Eof, and the status before Eof. -/
theorem Tap.ending {msgs : List ChannelMsg} (h : Tap tr s) (hp : tr <+: msgs ++ [.ended])
    (hd : s.driver = .ended) : ∃ before,
      s.core.channel.sent =
        before ++ [.exit ((ChannelMsg.lastStatus (beforeEof msgs)).map asI32)] ∧
      bytesOf before = ChannelMsg.dataOf (beforeEof msgs) := by
  obtain ⟨pre, msg, rfl, hm, hpre⟩ := h.stopped (by rw [hd]; rfl)
  obtain ⟨before, hsent⟩ := h.ended hd
  have hdata := h.data
  have hstatus := h.status
  rw [ChannelMsg.lastStatus_snoc, ChannelMsg.lastStatus_stops hm, Option.none_or] at hstatus
  rw [ChannelMsg.dataOf_snoc, ChannelMsg.dataOf_stops hm, hsent, hd] at hdata
  rw [ChannelMsg.beforeEof_of_prefix hpre hm hp]
  exact ⟨before, by rw [hsent, hstatus], by simpa [DriverPc.inFlight] using hdata⟩

end RemotePane

/-- Every channel can bring an undisturbed driver to its end. Wherever it has ended, a status and
the data are reported exactly if the status is the last before Eof and no data came after Eof. -/
theorem remote_exit_status (msgs : List ChannelMsg) (status : UInt32) :
    (∃ tr s, Run remoteTap Undisturbed tr s ∧ tr <+: msgs ++ [.ended] ∧ s.driver = .ended) ∧
    ∀ tr s, Run remoteTap Undisturbed tr s → tr <+: msgs ++ [.ended] → s.driver = .ended →
      (s.ReportsExit msgs status ↔
        ChannelMsg.lastStatus (beforeEof msgs) = some status ∧
          ChannelMsg.dataOf (beforeEof msgs) = ChannelMsg.dataOf (beforeClose msgs)) := by
  constructor
  · obtain ⟨tr, s, hr, hp, hd⟩ := RemotePane.run_messages (msgs ++ [.ended])
      (.start ⟨40, 120, rfl⟩) ⟨rfl, rfl, rfl⟩ ⟨.ended, by simp, rfl⟩
    exact ⟨tr, s, hr, hp, hd⟩
  · intro tr s hr hp hd
    obtain ⟨before, hsent, hdata⟩ := (RemotePane.tap_of_run hr).ending hp hd
    constructor
    · rintro ⟨before', hsent', hdata'⟩
      obtain ⟨rfl, hexit⟩ := List.append_inj' (hsent.symm.trans hsent') rfl
      refine ⟨?_, hdata.symm.trans hdata'⟩
      simp only [List.cons.injEq, and_true, PaneUpdate.exit.injEq, Option.map_eq_some_iff] at hexit
      obtain ⟨status', hs', he⟩ := hexit
      rw [hs', asI32_injective he]
    · rintro ⟨hlast, hsame⟩
      refine ⟨before, ?_, hdata.trans hsame⟩
      rw [hsent, hlast]
      rfl

/-- A server that sends the status first. -/
theorem remote_exit_status_first : ∃ tr s, Run remoteTap Undisturbed tr s ∧
    s.ReportsExit [.data [104, 105], .exitStatus 3, .eof, .close] 3 := by
  obtain ⟨⟨tr, s, hr, hp, hd⟩, hiff⟩ :=
    remote_exit_status [.data [104, 105], .exitStatus 3, .eof, .close] 3
  exact ⟨tr, s, hr, (hiff tr s hr hp hd).mpr (by decide)⟩

/-- A server that sends Eof first. -/
theorem remote_exit_status_lost : ¬ ∀ (msgs : List ChannelMsg) (status : UInt32)
    (tr : List ChannelMsg) (s : RemotePane),
    ChannelMsg.lastStatus (beforeClose msgs) = some status →
    Run remoteTap Undisturbed tr s → tr <+: msgs ++ [.ended] → s.driver = .ended →
    s.ReportsExit msgs status := by
  intro hall
  obtain ⟨tr, s, hr, hp, hd, hsent⟩ := Run.of_replay remoteTap Undisturbed
    (fun tr s => tr <+: [.data [104, 105], .eof, .exitStatus 3, .close, .ended] ∧
      s.driver = .ended ∧ s.core.channel.sent = [.bytes [104, 105]] ++ [.exit none])
    ⟨40, 120, rfl⟩
    ([RemoteAct.message (.data [104, 105])] ++ List.replicate 4 RemoteAct.driver ++
      [RemoteAct.message .eof] ++ List.replicate 3 RemoteAct.driver) (by decide)
  obtain ⟨before, hexit, -⟩ :=
    hall [.data [104, 105], .eof, .exitStatus 3, .close] 3 tr s (by decide) hr hp hd
  have hlast := List.append_inj' (hsent.symm.trans hexit) rfl
  simp at hlast

end Tepegoz
