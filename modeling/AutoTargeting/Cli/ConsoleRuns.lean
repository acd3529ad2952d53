import AutoTargeting.Cli.BusConsole
import AutoTargeting.EventBus.Consumers
import AutoTargeting.EventBus.Delivery
import AutoTargeting.Library.Wire

namespace AutoTargeting.Cli

open EventBus Json Runs Control

/-- The console, the bridge with what waits in its queue, and `at/commands` between them: a bus that
keeps the order of these messages, but may take its time and lose some of them. -/
structure Operated (F : Type) where
  console : BusConsole
  wire : Wire CommandMsg
  bridge : Fed (fun _ : Unit => Bytes) (BridgeRun F)

/-- A line that the operator types, with what comes of its command; what the bus does; or a turn of
the bridge. -/
inductive OperatorEvent
  | line (text : String) (outcome : BusConsole.SendOutcome)
  | deliver
  | lose (i : ℕ)
  | turn (t : BridgeTurn)

/-- What the bridge takes a payload of `at/commands` for. -/
def decodeCommand (_ : Unit) (p : Bytes) : Option CommandMsg := fromSlice CommandMsg.deserialize p

section
variable (F G : Type) [ArgFloat F G] [JsonFloat G] [ParseF64 G] (cfg : BridgeConfig)
  (maxDuration : Option ℕ)

def Operated.step (s : Operated F) : OperatorEvent → Option (Operated F)
  | .line text outcome =>
    (s.console.onLine G text outcome).map fun r =>
      { s with console := r.1, wire := s.wire.put r.2.toList }
  | .deliver =>
    s.wire.deliver.bind fun r =>
      (((bridgeLoop F G cfg maxDuration).machine decodeCommand).step s.bridge
        (.arrive () (toVec r.1.serialize))).map fun b => { s with wire := r.2, bridge := b }
  | .lose i => (s.wire.lose i).map fun wire => { s with wire }
  | .turn t =>
    (((bridgeLoop F G cfg maxDuration).machine decodeCommand).step s.bridge (.turn t)).map
      fun b => { s with bridge := b }

def operated : Machine (Operated F) OperatorEvent where
  Init s := s.console = .start ∧ s.wire = .empty ∧ s.bridge.queue = noneWaits ∧
    s.bridge.state.commands = ⟨0, 0, []⟩
  step := Operated.step F G cfg maxDuration

/-- The commands that reach the bus, with their ids. -/
def published (s : Operated F) : OperatorEvent → List (UInt64 × ConsoleCommand G)
  | .line text outcome =>
    if outcome.published = true then (command G text).toList.map fun c => (s.console.nextId, c)
    else []
  | .deliver | .lose _ | .turn _ => []

/-- What an operator means by a command. A number that JSON has not got is null on the bus: a region
without its coordinates is refused there, one without its altitude is at 0. -/
def meaning : ConsoleCommand G → Option (FcCall F)
  | .arm => some .arm
  | .disarm => some .disarm
  | .mode name => (flightModeOf (name.map Char.toLower)).map .setMode
  | .setRoi lat lon alt =>
    if JsonFloat.isFinite lat = true ∧ JsonFloat.isFinite lon = true then
      some (.setRoi (.globalLatLng
        (ArgFloat.toBits F (ArgFloat.asF64 F (JsonFloat.write lat) : G))
        (ArgFloat.toBits F (ArgFloat.asF64 F (JsonFloat.write lon) : G))
        (ArgFloat.toF32 (if JsonFloat.isFinite alt = true then
          (ArgFloat.asF64 F (JsonFloat.write alt) : G) else ArgFloat.zero F))))
    else none
  | .abort => some (.setMode .rtl)
  | .configGet => none

end

section
variable {F G : Type} [ArgFloat F G] [JsonFloat G]

theorem dispatch_setMode (id : UInt64) (name : String) :
    (dispatch F G (commandMsg id (.mode name : ConsoleCommand G))).toOption =
      (flightModeOf (name.map Char.toLower)).map .setMode := by
  have hname : (get (commandMsg id (.mode name : ConsoleCommand G)).args "mode").bind asStr =
      some name := rfl
  have htarget : ¬ (commandMsg id (.mode name : ConsoleCommand G)).target ≠ "fc" := fun h => h rfl
  have hcmd : (commandMsg id (.mode name : ConsoleCommand G)).cmd = "set_mode" := rfl
  unfold dispatch
  rw [if_neg htarget, hcmd]
  simp only [hname]
  cases flightModeOf (name.map Char.toLower) with
  | none => rfl
  | some mode => rfl

/-- A coordinate of a region is a number for the bridge if it is finite. -/
theorem asF64_jsonNumber (x : G) :
    (asF64 F (jsonNumber x) : Option G) =
      if JsonFloat.isFinite x = true then some (ArgFloat.asF64 F (JsonFloat.write x)) else none := by
  unfold jsonNumber
  split <;> rfl

theorem dispatch_setRoi (id : UInt64) (lat lon alt : G) :
    (dispatch F G (commandMsg id (.setRoi lat lon alt))).toOption =
      meaning F G (.setRoi lat lon alt) := by
  have hnone : get (commandMsg id (.setRoi lat lon alt)).args "none" = none := rfl
  have hlat : get (commandMsg id (.setRoi lat lon alt)).args "lat" = some (jsonNumber lat) := rfl
  have hlon : get (commandMsg id (.setRoi lat lon alt)).args "lon" = some (jsonNumber lon) := rfl
  have halt : get (commandMsg id (.setRoi lat lon alt)).args "alt" = some (jsonNumber alt) := rfl
  have htarget : ¬ (commandMsg id (.setRoi lat lon alt)).target ≠ "fc" := fun h => h rfl
  have hcmd : (commandMsg id (.setRoi lat lon alt)).cmd = "set_roi" := rfl
  unfold dispatch
  rw [if_neg htarget, hcmd]
  simp only [hnone, number, hlat, hlon, halt, Option.bind_some, asF64_jsonNumber, Option.bind_none,
    meaning]
  by_cases hflat : JsonFloat.isFinite lat = true
  · by_cases hflon : JsonFloat.isFinite lon = true
    · simp only [hflat, hflon]
      by_cases hfalt : JsonFloat.isFinite alt = true
      · simp only [hfalt]
        rfl
      · simp only [hfalt]
        rfl
    · simp only [hflat, hflon]
      rfl
  · simp only [hflat]
    rfl

/-- The dispatcher does what was meant, or refuses. -/
theorem dispatch_commandMsg (id : UInt64) (c : ConsoleCommand G) :
    (dispatch F G (commandMsg id c)).toOption = meaning F G c := by
  cases c with
  | arm => rfl
  | disarm => rfl
  | abort =>
    have hrtl : "rtl".map Char.toLower = "rtl" := by
      apply String.toList_inj.mp
      rw [String.toList_map]
      decide
    have hsame := dispatch_setMode (F := F) (G := G) id "rtl"
    rw [hrtl] at hsame
    exact hsame
  | configGet => rfl
  | mode name => exact dispatch_setMode id name
  | setRoi lat lon alt => exact dispatch_setRoi id lat lon alt

/-- A command comes off the bus as it was put there. -/
theorem decodeCommand_payload (id : UInt64) (c : ConsoleCommand G) :
    decodeCommand () (toVec (commandMsg id c).serialize) = some (commandMsg id c) := by
  obtain ⟨hread, hmap⟩ := commandMsg_args 125 c id
  rw [decodeCommand, fromSlice_toVec (CommandMsg.wellFormed _)]
  exact CommandMsg.received 126 _ hread hmap

omit [JsonFloat G] in
/-- What the bridge makes of the commands of a turn, whatever the adapter answers. -/
theorem foldl_handle (s : Commands F) (cmds : List (CommandMsg × Option FcError)) :
    let s' := cmds.foldl (Commands.handle G) s
    s'.calls.map (·.1) = s.calls.map (·.1) ++
        cmds.filterMap (fun cmd => (dispatch F G cmd.1).toOption) ∧
      s'.handled + s'.errors = s.handled + s.errors + cmds.length := by
  induction cmds generalizing s with
  | nil => simp
  | cons cmd cmds ih =>
    obtain ⟨hcalls, hcount⟩ := ih (s.handle G cmd)
    rw [List.foldl_cons]
    refine ⟨hcalls.trans ?_, hcount.trans ?_⟩
    · unfold Commands.handle
      cases hd : dispatch F G cmd.1 with
      | error e => simp [hd, Except.toOption]
      | ok call => simp [hd, Except.toOption]
    · unfold Commands.handle
      cases dispatch F G cmd.1 with
      | error e => simp only [List.length_cons]; omega
      | ok call =>
        simp only [List.length_cons]
        split <;> omega

def message (sent : UInt64 × ConsoleCommand G) : CommandMsg := commandMsg sent.1 sent.2

def payload (sent : UInt64 × ConsoleCommand G) : Bytes := toVec (message sent).serialize

/-- Of the commands that were published, in their order, these have been carried out, these wait
for the bridge's next turn, and the others are on their way or were lost. -/
structure Obeyed (t : Logged (Operated F) (UInt64 × ConsoleCommand G))
    (done waiting : List (UInt64 × ConsoleCommand G)) : Prop where
  carried : ∃ w : Wire (UInt64 × ConsoleCommand G),
    t.state.wire = w.map message ∧ w.Carries t.log (done ++ waiting)
  calls : t.state.bridge.state.commands.calls.map (·.1) =
    done.filterMap (fun sent => meaning F G sent.2)
  count : t.state.bridge.state.commands.handled + t.state.bridge.state.commands.errors = done.length
  queue : t.state.bridge.queue () = waiting.map payload

variable [ParseF64 G] {cfg : BridgeConfig} {maxDuration : Option ℕ} {s s' : Operated F}

theorem onLine_message {c c' : BusConsole} {text : String} {outcome : BusConsole.SendOutcome}
    {m : Option CommandMsg} (h : c.onLine G text outcome = some (c', m)) :
    m = if outcome.published = true then (command G text).map (commandMsg c.nextId) else none := by
  unfold BusConsole.onLine at h
  split at h
  · cases h
  · unfold command
    split at h
    · rename_i cmd hrequest
      obtain rfl := (Prod.mk.inj (Option.some.inj h)).2
      rw [hrequest]
      rfl
    · rename_i hrequest
      obtain rfl := (Prod.mk.inj (Option.some.inj h)).2
      rw [hrequest]
      simp
    · rename_i hsend hquit
      obtain rfl := (Prod.mk.inj (Option.some.inj h)).2
      split
      · split
        · rename_i cmd hrequest
          exact absurd hrequest (hsend cmd)
        · rfl
      · rfl

/-- A line leaves the bridge alone, and puts its command on the bus. -/
theorem step_line {text : String} {outcome : BusConsole.SendOutcome}
    (h : (operated F G cfg maxDuration).step s (.line text outcome) = some s') :
    s'.bridge = s.bridge ∧
      s'.wire = s.wire.put ((published F G s (.line text outcome)).map message) := by
  obtain ⟨⟨c, m⟩, hline, rfl⟩ := Option.map_eq_some_iff.mp h
  have hm := onLine_message hline
  refine ⟨rfl, congrArg s.wire.put ?_⟩
  simp only [published]
  rw [hm]
  split
  · cases command G text <;> rfl
  · rfl

/-- A turn takes all the commands that wait, and carries them out in their order. -/
theorem step_turn {turn : BridgeTurn} {waiting : List (UInt64 × ConsoleCommand G)}
    (hq : s.bridge.queue () = waiting.map payload)
    (h : (operated F G cfg maxDuration).step s (.turn turn) = some s') :
    s'.bridge.queue () = [] ∧
      s'.bridge.state.commands.calls.map (·.1) = s.bridge.state.commands.calls.map (·.1) ++
        waiting.filterMap (fun sent => meaning F G sent.2) ∧
      s'.bridge.state.commands.handled + s'.bridge.state.commands.errors =
        s.bridge.state.commands.handled + s.bridge.state.commands.errors + waiting.length := by
  obtain ⟨b, hb, rfl⟩ := Option.map_eq_some_iff.mp h
  obtain ⟨st, hst, rfl⟩ := Option.map_eq_some_iff.mp hb
  have hdrain : drain (decodeCommand ()) none (s.bridge.queue ()) =
      (⟨waiting.map message, false⟩, []) := by
    apply drain_decodable
    rw [hq, List.map_map, List.map_map]
    exact List.map_congr_left fun sent _ => decodeCommand_payload sent.1 sent.2
  have hgot : ((bridgeLoop F G cfg maxDuration).got decodeCommand s.bridge.queue ()).messages =
      waiting.map message := congrArg (·.1.messages) hdrain
  refine ⟨congrArg Prod.snd hdrain, ?_⟩
  simp only [bridgeLoop] at hst hgot
  rw [hgot] at hst
  unfold BridgeRun.turn at hst
  split at hst
  · cases hst
  · obtain rfl := Option.some.inj hst
    have hfold := foldl_handle (G := G) s.bridge.state.commands
      ((waiting.map message).zipIdx.map fun p => (p.1, turn.answers p.2))
    refine ⟨hfold.1.trans ?_, hfold.2.trans ?_⟩
    · congr 1
      have hfst : waiting.map message = ((waiting.map message).zipIdx).map (·.1) := by simp
      conv_lhs => rw [List.filterMap_map]
      calc _ = (((waiting.map message).zipIdx).map (·.1)).filterMap
            (fun cmd => (dispatch F G cmd).toOption) := by rw [List.filterMap_map]; rfl
        _ = _ := by
          rw [← hfst, List.filterMap_map]
          exact List.filterMap_congr fun sent _ => dispatch_commandMsg sent.1 sent.2
    · simp

theorem obeyed_step {t t' : Logged (Operated F) (UInt64 × ConsoleCommand G)} {e : OperatorEvent}
    {done waiting : List (UInt64 × ConsoleCommand G)} (ht : Obeyed t done waiting)
    (h : ((operated F G cfg maxDuration).logged (published F G)).step t e = some t') :
    ∃ done' waiting', Obeyed t' done' waiting' := by
  obtain ⟨s', hs, rfl⟩ := Machine.logged_step h
  obtain ⟨⟨w, hwire, hcarries⟩, hcalls, hcount, hqueue⟩ := ht
  cases e with
  | line text outcome =>
    obtain ⟨hbridge, hput⟩ := step_line hs
    refine ⟨done, waiting, ⟨w.put (published F G t.state (.line text outcome)), ?_,
      hcarries.put _⟩, ?_, ?_, ?_⟩
    · rw [hput, hwire, Wire.put_map]
    · rw [hbridge, hcalls]
    · rw [hbridge, hcount]
    · rw [hbridge, hqueue]
  | deliver =>
    obtain ⟨⟨m, v⟩, hdeliver, hs⟩ := Option.bind_eq_some_iff.mp hs
    obtain ⟨bridge, hbridge, rfl⟩ := Option.map_eq_some_iff.mp hs
    obtain rfl := Option.some.inj hbridge
    rw [hwire] at hdeliver
    obtain ⟨sent, w', hw, rfl, rfl⟩ := Wire.deliver_map hdeliver
    refine ⟨done, waiting ++ [sent], ⟨w', rfl, ?_⟩, hcalls, hcount, ?_⟩
    · rw [← List.append_assoc]
      simpa [published] using hcarries.deliver hw
    · simp [enqueue, hqueue, payload]
  | lose i =>
    obtain ⟨v, hlose, rfl⟩ := Option.map_eq_some_iff.mp hs
    rw [hwire] at hlose
    obtain ⟨w', hw, rfl⟩ := Wire.lose_map hlose
    refine ⟨done, waiting, ⟨w', rfl, ?_⟩, hcalls, hcount, hqueue⟩
    simpa [published] using hcarries.lose hw
  | turn turn =>
    obtain ⟨hempty, hmore, htotal⟩ := step_turn hqueue hs
    have hsame : s'.wire = t.state.wire := by
      obtain ⟨b, -, rfl⟩ := Option.map_eq_some_iff.mp hs
      rfl
    refine ⟨done ++ waiting, [], ⟨w, hsame.trans hwire, ?_⟩, ?_, ?_, hempty⟩
    · rw [List.append_nil]
      simpa [published] using hcarries
    · rw [hmore, hcalls, List.filterMap_append]
    · rw [htotal, hcount, List.length_append]

theorem obeyed_reachable {t : Logged (Operated F) (UInt64 × ConsoleCommand G)}
    (h : ((operated F G cfg maxDuration).logged (published F G)).Reachable t) :
    ∃ done waiting, Obeyed t done waiting := by
  refine h.invariant (I := fun t => ∃ done waiting, Obeyed t done waiting) ?_ ?_
  · rintro ⟨s, log⟩ ⟨⟨-, hwire, hqueue, hcommands⟩, hlog⟩
    cases hlog
    refine ⟨[], [], ⟨.empty, hwire, Wire.carries_empty⟩, ?_, ?_, ?_⟩
    · rw [hcommands]
      rfl
    · rw [hcommands]
      rfl
    · rw [hqueue]
      rfl
  · intro t e t' _ ⟨done, waiting, ht⟩ _ hs
    exact obeyed_step ht hs

/-- The commands that an operator gets onto the bus and that come through it are carried out in
their order, each once, for what they mean or not at all; a turn of the bridge leaves none waiting,
and where none was lost and none is on its way, all have been carried out then. -/
theorem operator_obeyed {t : Logged (Operated F) (UInt64 × ConsoleCommand G)}
    (h : ((operated F G cfg maxDuration).logged (published F G)).Reachable t) :
    (∃ done waiting, Obeyed t done waiting) ∧
    ∀ turn t', ((operated F G cfg maxDuration).logged (published F G)).step t (.turn turn) =
        some t' →
      t'.state.bridge.queue () = [] ∧ (t.state.wire = .empty →
        t'.state.bridge.state.commands.calls.map (·.1) =
          t.log.filterMap (fun sent => meaning F G sent.2)) := by
  refine ⟨obeyed_reachable h, fun turn t' hs => ?_⟩
  obtain ⟨done, waiting, ⟨w, hwire, hcarries⟩, hcalls, -, hqueue⟩ := obeyed_reachable h
  obtain ⟨s', hturn, rfl⟩ := Machine.logged_step hs
  obtain ⟨hempty, hmore, -⟩ := step_turn hqueue hturn
  refine ⟨hempty, fun hnone => ?_⟩
  have hmap : w.map message = .empty := hwire.symm.trans hnone
  have hflying : w.flying = [] := List.map_eq_nil_iff.mp (congrArg Wire.flying hmap)
  have hall := hcarries.eq_of_none_lost (congrArg Wire.lost hmap)
  rw [hflying, List.append_nil] at hall
  rw [hmore, hcalls, ← List.filterMap_append, hall]

end

instance : ArgFloat ℚ ZeroOrNan where
  asF64 _ := .zero
  toBits _ := 0
  toF32 _ := 0
  zero := .zero

instance : ParseF64 ZeroOrNan where
  parse s := if s = "0" then some .zero else if s = "NaN" then some .nan else none

def operatedStart : Operated ℚ :=
  ⟨.start, .empty, ⟨⟨0, ⟨0, 0, []⟩, ⟨0, none, none, none, 0, []⟩, []⟩, noneWaits⟩⟩

def bridgeTurn : BridgeTurn := ⟨1, fun _ => none, 1, .fresh 1, true⟩

/-- Of four commands, one fails unsent, one is lost on the bus, and one names no place. -/
theorem operator_obeyed_arm : ∃ t : Logged (Operated ℚ) (UInt64 × ConsoleCommand ZeroOrNan),
    (∃ done waiting, Obeyed t done waiting) ∧ t.log.length = 3 ∧ t.state.wire.lost = 1 ∧
      t.state.bridge.state.commands.calls = [(.disarm, none)] := by
  have hrun : (((operated ℚ ZeroOrNan .default none).logged (published ℚ ZeroOrNan)).exec
      (fun _ _ => True) ⟨operatedStart, []⟩ [.line "arm" .sent, .line "mode rtl" (.failed false),
        .line "disarm" .sent, .lose 0, .line "set-roi NaN 0" (.failed true), .deliver, .deliver,
        .line "q" .sent, .turn bridgeTurn]).map
        (fun t => (t.log.length, t.state.wire.lost, t.state.bridge.state.commands.calls)) =
      some (3, 1, [(.disarm, none)]) := by
    decide +kernel
  obtain ⟨t, ht, hlog⟩ := Option.map_eq_some_iff.mp hrun
  obtain ⟨hlength, hrest⟩ := Prod.mk.inj hlog
  obtain ⟨hlost, hcalls⟩ := Prod.mk.inj hrest
  exact ⟨t, (operator_obeyed (.of_exec (.init ⟨⟨rfl, rfl, rfl, rfl⟩, rfl⟩) ht)).1, hlength, hlost,
    hcalls⟩

end AutoTargeting.Cli
