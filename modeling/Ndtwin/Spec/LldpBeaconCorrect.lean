import Ndtwin.ForStd.Pieces
import Ndtwin.Proxy.LldpBeacon
import Ndtwin.Spec.InstalledRoutesCorrect
import Ndtwin.Spec.RequestValuesCorrect

/-!
# LLDP Beacon Correctness

`parse_lldp_packet` reads back every beacon that `create_lldp_packet` writes, and answers every
other frame, undecodable ones included, with a pair of numbers or with `None`. What it does not
do is check the numbers. A beacon that tells of a new link goes straight into the graph, and the
routes that are installed over it encode its port in two bytes, which raises for a port that is
too large or negative; the receive thread does not catch that.

## Key results

- `parseLldpPacket_total`: no frame makes the parser raise
- `parseLldpPacket_createLldpPacket`: the round trip, for all numbers that can be printed
- `parseLldpPacket_eq_some_iff`: which frames are beacons
- `isOk_handlePacketIn_iff`: when a packet leaves its receive thread alive
- `finalState_handlePacketIn`: what a packet leaves is what a watchdog pass meets
- `receiver_survives_iff`: round trip, totality, and whole runs of a receive thread
-/

namespace Ndtwin.Proxy

open StreamPacket

/-! ## Frames that are beacons -/

/-- What `int(..)` makes of a text. -/
def ReadsAs (text : List Char) (n : Int) : Prop :=
  Python.toInt (.str (String.ofList text)) = .ok n

/-- A frame that carries a beacon: behind the LLDP ethertype, UTF-8 text that starts with `DPID:`,
    where a number stands behind the first colon, and another one behind the first colon that
    follows the first comma. -/
inductive IsBeacon (dpid port : Int) : List UInt8 → Prop where
  | mk {addresses : List UInt8} {text second dpidText portText : List Char}
    (haddresses : addresses.length = 12)
    (hstarts : "DPID:".toList <+: text)
    (hsecond : List.IsSecondPiece ',' text second)
    (hdpidText : List.IsSecondPiece ':' (text.takeWhile (· != ',')) dpidText)
    (hportText : List.IsSecondPiece ':' second portText)
    (hdpid : ReadsAs dpidText dpid)
    (hport : ReadsAs portText port) :
    IsBeacon dpid port (addresses ++ 0x88 :: 0xcc :: Python.encodeUtf8 text)

theorem item_eq_ok_iff {α : Type} {l : List α} {i : Nat} {a : α} :
    Python.item l i = .ok a ↔ l[i]? = some a := by
  unfold Python.item
  cases l[i]? with
  | none => exact iff_of_false (fun h => nomatch h) fun h => nomatch h
  | some b => simp

theorem numberOf_eq_ok_iff {part : List Char} {n : Int} :
    numberOf part = .ok n ↔ ∃ text, List.IsSecondPiece ':' part text ∧ ReadsAs text n := by
  simp only [← List.getElem?_one_splitOn_iff, ← item_eq_ok_iff]
  constructor
  · intro h
    exact EState.bind_eq_ok h
  · rintro ⟨text, htext, hn⟩
    rw [numberOf, htext, EState.ok_bind]
    exact hn

theorem readBeacon_eq_some_iff {frame : List UInt8} {dpid port : Int} :
    readBeacon frame = .ok (some (dpid, port)) ↔
      ∃ text second, frame.drop 14 = Python.encodeUtf8 text ∧ "DPID:".toList <+: text ∧
        List.IsSecondPiece ',' text second ∧ numberOf (text.takeWhile (· != ',')) = .ok dpid ∧
        numberOf second = .ok port := by
  simp only [← Python.decodeUtf8_eq_ok_iff, ← List.getElem?_one_splitOn_iff, ← item_eq_ok_iff]
  have hfirst : ∀ text : List Char,
      Python.item (text.splitOn ',') 0 = .ok (text.takeWhile (· != ',')) :=
    fun text => item_eq_ok_iff.mpr (List.getElem?_zero_splitOn ',' text)
  unfold readBeacon
  constructor
  · intro h
    obtain ⟨text, htext, h⟩ := EState.bind_eq_ok h
    split at h
    · next hstarts =>
      dsimp only at h
      rw [hfirst, EState.ok_bind] at h
      obtain ⟨n, hn, h⟩ := EState.bind_eq_ok h
      obtain ⟨second, hsecond, h⟩ := EState.bind_eq_ok h
      obtain ⟨p, hp, h⟩ := EState.bind_eq_ok h
      cases h
      exact ⟨text, second, htext, List.isPrefixOf_iff_prefix.mp hstarts, hsecond, hn, hp⟩
    · exact nomatch h
  · rintro ⟨text, second, htext, hstarts, hsecond, hdpid, hport⟩
    rw [htext, EState.ok_bind, if_pos (List.isPrefixOf_iff_prefix.mpr hstarts)]
    dsimp only
    rw [hfirst, EState.ok_bind, hdpid, EState.ok_bind, hsecond, EState.ok_bind, hport,
      EState.ok_bind]
    rfl

/-- The ethertype of a beacon. -/
theorem hexText_eq_lldp_iff {bs : List UInt8} :
    Python.hexText bs = "88cc".toList ↔ bs = [0x88, 0xcc] := by
  -- two bytes of one text are the same two bytes
  have hlldp : Python.hexText [0x88, 0xcc] = "88cc".toList := by decide +kernel
  rw [← hlldp]
  exact Python.hexText_injective.eq_iff

/-- A frame with the ethertype, in its parts. -/
theorem eq_append_of_ethertype {frame : List UInt8}
    (hethertype : (frame.take 14).drop 12 = [0x88, 0xcc]) :
    frame = frame.take 12 ++ 0x88 :: 0xcc :: frame.drop 14 := by
  calc frame
      = (frame.take 14).take 12 ++ (frame.take 14).drop 12 ++ frame.drop 14 := by
        rw [List.take_append_drop, List.take_append_drop]
    _ = frame.take 12 ++ 0x88 :: 0xcc :: frame.drop 14 := by
        rw [hethertype, List.take_take, List.append_assoc]
        rfl

/-- `parse_lldp_packet` reads exactly the beacons. -/
theorem parseLldpPacket_eq_some_iff {frame : List UInt8} {dpid port : Int} :
    parseLldpPacket frame = .ok (some (dpid, port)) ↔ IsBeacon dpid port frame := by
  constructor
  · intro h
    unfold parseLldpPacket at h
    split at h
    · exact nomatch h
    · next hlength =>
      dsimp only at h
      split at h
      · exact nomatch h
      · next hethertype =>
        have hparts := eq_append_of_ethertype (hexText_eq_lldp_iff.mp (not_not.mp hethertype))
        cases hread : readBeacon frame with
        | error e =>
          -- what raises in the `try` is read as no beacon
          rw [hread] at h
          exact nomatch h
        | ok info =>
          rw [hread] at h
          obtain rfl := Except.ok.inj h
          obtain ⟨text, second, htext, hstarts, hsecond, hdpid, hport⟩ :=
            readBeacon_eq_some_iff.mp hread
          obtain ⟨dpidText, hdpidText, hdpid⟩ := numberOf_eq_ok_iff.mp hdpid
          obtain ⟨portText, hportText, hport⟩ := numberOf_eq_ok_iff.mp hport
          rw [hparts, htext]
          refine .mk ?_ hstarts hsecond hdpidText hportText hdpid hport
          rw [List.length_take]
          omega
  · rintro ⟨haddresses, hstarts, hsecond, hdpidText, hportText, hdpid, hport⟩
    next addresses text second dpidText portText =>
    -- the payload starts behind the addresses and the ethertype
    have hread : readBeacon (addresses ++ 0x88 :: 0xcc :: Python.encodeUtf8 text) =
        .ok (some (dpid, port)) := by
      refine readBeacon_eq_some_iff.mpr ⟨text, second, ?_, hstarts, hsecond,
        numberOf_eq_ok_iff.mpr ⟨dpidText, hdpidText, hdpid⟩,
        numberOf_eq_ok_iff.mpr ⟨portText, hportText, hport⟩⟩
      rw [List.drop_append, haddresses, List.drop_eq_nil_of_le (by omega)]
      rfl
    have hethertype : Python.hexText
        (((addresses ++ 0x88 :: 0xcc :: Python.encodeUtf8 text).take 14).drop 12) =
        "88cc".toList := by
      rw [hexText_eq_lldp_iff, List.take_append, haddresses, List.take_of_length_le (by omega),
        List.drop_append, haddresses, List.drop_eq_nil_of_le (by omega)]
      rfl
    unfold parseLldpPacket
    rw [if_neg (by simp only [List.length_append, List.length_cons]; omega)]
    dsimp only
    rw [if_neg (not_not.mpr hethertype), hread]

/-- No frame makes `parse_lldp_packet` raise. -/
theorem parseLldpPacket_total (frame : List UInt8) : ∃ info, parseLldpPacket frame = .ok info := by
  unfold parseLldpPacket
  split
  · exact ⟨none, rfl⟩
  · dsimp only
    split
    · exact ⟨none, rfl⟩
    · cases readBeacon frame with
      | ok info => exact ⟨info, rfl⟩
      | error e => exact ⟨none, rfl⟩

/-! ## The round trip -/

/-- The text of a beacon, in its two parts. -/
def beaconText (dpidText portText : List Char) : List Char :=
  (['D', 'P', 'I', 'D', ':'] ++ dpidText) ++ ',' :: (['P', 'O', 'R', 'T', ':'] ++ portText)

theorem toList_append_eq_beaconText (dpidText portText : List Char) :
    "DPID:".toList ++ dpidText ++ ",PORT:".toList ++ portText = beaconText dpidText portText := by
  have hdpid : "DPID:".toList = ['D', 'P', 'I', 'D', ':'] := by decide
  have hport : ",PORT:".toList = ',' :: ['P', 'O', 'R', 'T', ':'] := by decide
  rw [hdpid, hport, List.append_assoc, beaconText]
  rfl

/-- The text of a number has no separator in it. -/
theorem separators_notMem_strInt {i : Int} {text : List Char} (h : Python.strInt i = .ok text) :
    ',' ∉ text ∧ ':' ∉ text := by
  have hdigit : ∀ d < 10, d.digitChar ≠ ',' ∧ d.digitChar ≠ ':' := by decide
  constructor
  · intro hmem
    rcases Python.mem_strInt h hmem with hsign | ⟨d, hd, hc⟩
    · exact absurd hsign (by decide)
    · exact (hdigit d hd).1 hc.symm
  · intro hmem
    rcases Python.mem_strInt h hmem with hsign | ⟨d, hd, hc⟩
    · exact absurd hsign (by decide)
    · exact (hdigit d hd).2 hc.symm

/-- Every switch has a source address, whatever its dpid. -/
theorem exists_lldpSourceMac (dpid : Int) :
    ∃ mac, lldpSourceMac dpid = .ok mac ∧ mac.length = 6 := by
  -- masked to 16 bits, every dpid fits its two bytes
  obtain ⟨low, hlow⟩ : ∃ low, Python.toBytes 2 (dpid % 65536) = .ok low := by
    rw [isOk_toBytes_iff]
    omega
  refine ⟨lldpSourceMacPrefix ++ low, ?_, ?_⟩
  · rw [lldpSourceMac, hlow, EState.ok_bind]
    rfl
  · rw [List.length_append, (toBytes_ok hlow).2]
    rfl

/-- A beacon is the text of its two numbers behind two addresses and the ethertype. -/
theorem createLldpPacket_eq (dpid port : Int) :
    ∃ addresses : List UInt8, addresses.length = 12 ∧
      createLldpPacket dpid port =
        (Python.strInt dpid >>= fun dpidText => Python.strInt port >>= fun portText =>
          .ok (addresses ++ 0x88 :: 0xcc ::
            Python.encodeUtf8 (beaconText dpidText portText))) := by
  have hdst : Python.fromHex "0180c200000e".toList = .ok [0x01, 0x80, 0xc2, 0x00, 0x00, 0x0e] := by
    decide +kernel
  have hethertype : Python.fromHex "88cc".toList = .ok [0x88, 0xcc] := by decide +kernel
  obtain ⟨mac, hmac, hlength⟩ := exists_lldpSourceMac dpid
  refine ⟨[0x01, 0x80, 0xc2, 0x00, 0x00, 0x0e] ++ mac, ?_, ?_⟩
  · rw [List.length_append, hlength]
    rfl
  · rw [createLldpPacket, hdst, EState.ok_bind, hmac, EState.ok_bind, hethertype, EState.ok_bind]
    simp only [toList_append_eq_beaconText]
    simp only [List.append_assoc]
    rfl

/-- The text of two numbers is a beacon of them. -/
theorem isBeacon_beaconText {dpid port : Int} {dpidText portText : List Char}
    (hdpid : Python.strInt dpid = .ok dpidText) (hport : Python.strInt port = .ok portText)
    {addresses : List UInt8} (haddresses : addresses.length = 12) :
    IsBeacon dpid port
      (addresses ++ 0x88 :: 0xcc :: Python.encodeUtf8 (beaconText dpidText portText)) := by
  obtain ⟨hdpidComma, hdpidColon⟩ := separators_notMem_strInt hdpid
  obtain ⟨hportComma, hportColon⟩ := separators_notMem_strInt hport
  -- so the only comma is the one between the parts, and each part has one colon
  have hfirst : ',' ∉ ['D', 'P', 'I', 'D', ':'] ++ dpidText := by simp [hdpidComma]
  have hsecond : List.IsSecondPiece ',' (beaconText dpidText portText)
      (['P', 'O', 'R', 'T', ':'] ++ portText) := by
    refine ⟨_, [], ?_, hfirst, by simp [hportComma], Or.inl rfl⟩
    rw [beaconText, List.append_nil]
  have hpart : (beaconText dpidText portText).takeWhile (· != ',') =
      ['D', 'P', 'I', 'D', ':'] ++ dpidText := by
    rw [beaconText, List.takeWhile_append_cons_of_not_mem hfirst]
  refine .mk haddresses ?_ hsecond ?_ ?_ (Python.toInt_strInt hdpid) (Python.toInt_strInt hport)
  · rw [← toList_append_eq_beaconText, List.append_assoc, List.append_assoc]
    exact List.prefix_append _ _
  · rw [hpart]
    exact ⟨['D', 'P', 'I', 'D'], [], by simp, by decide, hdpidColon, Or.inl rfl⟩
  · exact ⟨['P', 'O', 'R', 'T'], [], by simp, by decide, hportColon, Or.inl rfl⟩

/-- `parse_lldp_packet` reads back what `create_lldp_packet` wrote. -/
theorem parseLldpPacket_createLldpPacket {dpid port : Int} {frame : List UInt8}
    (h : createLldpPacket dpid port = .ok frame) :
    parseLldpPacket frame = .ok (some (dpid, port)) := by
  obtain ⟨addresses, haddresses, heq⟩ := createLldpPacket_eq dpid port
  rw [heq] at h
  obtain ⟨dpidText, hdpid, h⟩ := EState.bind_eq_ok h
  obtain ⟨portText, hport, h⟩ := EState.bind_eq_ok h
  obtain rfl := Except.ok.inj h
  exact parseLldpPacket_eq_some_iff.mpr (isBeacon_beaconText hdpid hport haddresses)

/-- A beacon can be written of every dpid of 64 bits and every port of 32 bits. -/
theorem exists_createLldpPacket {dpid port : Nat} (hdpid : dpid < 2 ^ 64) (hport : port < 2 ^ 32) :
    ∃ frame, createLldpPacket dpid port = .ok frame := by
  obtain ⟨addresses, -, heq⟩ := createLldpPacket_eq dpid port
  -- far below the limit of 4300 digits
  have hdpid20 : dpid < 10 ^ 20 := by omega
  have hport10 : port < 10 ^ 10 := by omega
  obtain ⟨dpidText, hdpidText⟩ := Python.exists_strInt (by decide) (by decide) hdpid20
  obtain ⟨portText, hportText⟩ := Python.exists_strInt (by decide) (by decide) hport10
  rw [heq, hdpidText, EState.ok_bind, hportText, EState.ok_bind]
  exact ⟨_, rfl⟩

/-! ## The receive thread -/

/-- A route that can be written: its switch has a client, the edge to the next node has a port of
    16 bits, and the host has an address and a hardware address. -/
def Writable (m : TopologyManager) (task : RouteTask) : Prop :=
  ∃ dpid next port ip, task.src = .dpid dpid ∧ task.dst = .ip ip ∧
    nextNode task.src task.path = .ok next ∧ m.net.edges.lookup (task.src, next) = some port ∧
    (m.switches.lookup dpid).isSome ∧ (0 ≤ port ∧ port < 2 ^ 16) ∧
    (∃ bytes, inetAton ip = .ok bytes) ∧ ∃ bytes, macBytes (m.net.macOf task.dst) = .ok bytes

theorem encodes_iff_writable (m : TopologyManager) (task : RouteTask) :
    Encodes m task ↔ Writable m task := by
  constructor
  · intro ⟨route, entry, hplan, hentry⟩
    -- the values of the entry, and then the lookups of the plan
    obtain ⟨⟨ip, bytes, hdst, hbytes⟩, hmac, port, hport, hrange⟩ :=
      (isOk_routeEntry_iff _ _ _ _).mp ⟨entry, hentry⟩
    obtain ⟨hsrc, ⟨switch, hswitch⟩, htask⟩ := planRoute_ok hplan
    unfold planRoute at hplan
    obtain ⟨next, hnext, hplan⟩ := EState.bind_eq_ok hplan
    split at hplan
    · exact nomatch hplan
    · exact nomatch hplan
    · next outPort d hedge _ =>
      split at hplan
      · exact nomatch hplan
      · cases hplan
        obtain rfl := Option.some.inj hport
        exact ⟨d, next, outPort, ip, hsrc, htask ip hdst, hnext, hedge,
          Option.isSome_iff_exists.mpr ⟨switch, hswitch⟩, hrange, ⟨bytes, hbytes⟩, hmac⟩
  · intro ⟨dpid, next, port, ip, hsrc, hdst, hnext, hedge, hclient, hrange, ⟨bytes, hbytes⟩, hmac⟩
    obtain ⟨switch, hswitch⟩ := Option.isSome_iff_exists.mp hclient
    have hplan : planRoute m task = .ok
        { dpid := dpid, dst := .str ip, mac := m.net.macOf task.dst, outPort := port } := by
      rw [planRoute, hnext, EState.ok_bind, hedge, hsrc]
      simp only [hswitch, hdst]
      rfl
    obtain ⟨entry, hentry⟩ := (isOk_routeEntry_iff (.str ip) 32 (m.net.macOf task.dst)
      (.int port)).mpr ⟨⟨ip, bytes, rfl, hbytes⟩, hmac, port, rfl, hrange⟩
    exact ⟨_, entry, hplan, hentry⟩

theorem isOk_installInitialRoutes_iff (shortestPath : ShortestPath) (onlyDpid : Option Int)
    (answers : Nat → Answers) (m : TopologyManager) :
    EState.isOk (installInitialRoutes shortestPath onlyDpid answers m) = true ↔
      ∀ task ∈ tasksOf shortestPath m onlyDpid, Writable m task := by
  simp only [← encodes_iff_writable]
  exact isOk_installRoutes_iff answers 0 0 _ _

/-- The link of a beacon is one between two switches that the graph does not have. -/
def IsNew (net : NetGraph) (deviceId dpid : Int) : Prop :=
  dpid ≠ deviceId ∧ net.edges.lookup (.dpid dpid, .dpid deviceId) = none

/-- The manager once it has taken up the link of a beacon. -/
def discovered (deviceId : Int) (p : StreamPacket) (dpid port : Int) (m : TopologyManager) :
    TopologyManager :=
  { recordPacketIn deviceId p (some (dpid, port)) m with
    net := m.net.addLink dpid deviceId port p.ingressPort }

/-- A packet that tells of no new link, or of one with which every route can be written. -/
def Harmless (shortestPath : ShortestPath) (deviceId : Int) (p : StreamPacket)
    (m : TopologyManager) : Prop :=
  ∀ dpid port, IsBeacon dpid port p.payload → IsNew m.net deviceId dpid →
    ∀ task ∈ tasksOf shortestPath (discovered deviceId p dpid port m) none,
      Writable (discovered deviceId p dpid port m) task

section Receive

variable {shortestPath : ShortestPath} {deviceId : Int} {p : StreamPacket}

theorem handlePacketIn_of_parse {lldpInfo : Option (Int × Int)}
    (h : parseLldpPacket p.payload = .ok lldpInfo) (m : TopologyManager) :
    handlePacketIn shortestPath deviceId p m =
      discoverLink shortestPath deviceId p lldpInfo (recordPacketIn deviceId p lldpInfo m) := by
  rw [handlePacketIn, py_bind h, EState.modify_bind]

/-- Without a new link nothing is done. -/
theorem discoverLink_of_old (m : TopologyManager) {lldpInfo : Option (Int × Int)}
    (h : ∀ dpid port, lldpInfo = some (dpid, port) → ¬ IsNew m.net deviceId dpid) :
    discoverLink shortestPath deviceId p lldpInfo m = .ok () m := by
  cases lldpInfo with
  | none => rfl
  | some info =>
    obtain ⟨dpid, port⟩ := info
    rw [discoverLink]
    split_ifs with hself
    · rfl
    · -- between two switches, so the graph has the link
      have hknown : (m.net.edges.lookup (.dpid dpid, .dpid deviceId)).isSome = true := by
        rw [Option.isSome_iff_ne_none]
        exact fun hnone => h dpid port rfl ⟨hself, hnone⟩
      rw [EState.get_bind, if_pos hknown]
      rfl

/-- A new link is put in the graph before the routes are installed. -/
theorem discoverLink_of_new (m : TopologyManager) {dpid : Int}
    (h : IsNew m.net deviceId dpid) (port : Int) :
    discoverLink shortestPath deviceId p (some (dpid, port)) m =
      (installInitialRoutes shortestPath none p.answers >>= fun _ => pure ())
        { m with net := m.net.addLink dpid deviceId port p.ingressPort } := by
  rw [discoverLink, if_neg h.1, EState.get_bind, h.2, Option.isSome_none,
    if_neg Bool.false_ne_true, EState.set_bind]

/-- A packet leaves its thread alive exactly when it is harmless. -/
theorem isOk_handlePacketIn_iff (m : TopologyManager) :
    EState.isOk (handlePacketIn shortestPath deviceId p m) = true ↔
      Harmless shortestPath deviceId p m := by
  obtain ⟨lldpInfo, hparse⟩ := parseLldpPacket_total p.payload
  rw [handlePacketIn_of_parse hparse]
  -- the packet is a beacon of the numbers that were read, and of no others
  have honly : ∀ dpid port, IsBeacon dpid port p.payload ↔ lldpInfo = some (dpid, port) := by
    intro dpid port
    rw [← parseLldpPacket_eq_some_iff, hparse, Except.ok.injEq]
  by_cases hnew : ∃ dpid port, lldpInfo = some (dpid, port) ∧ IsNew m.net deviceId dpid
  · obtain ⟨dpid, port, rfl, hnew⟩ := hnew
    have hinstall := isOk_installInitialRoutes_iff shortestPath none p.answers
      (discovered deviceId p dpid port m)
    rw [discoverLink_of_new (recordPacketIn deviceId p (some (dpid, port)) m) hnew,
      EState.isOk_bind_of_pure]
    -- the thread lives on when the installation returns
    constructor
    · intro h dpid' port' hbeacon _
      cases (honly dpid' port').mp hbeacon
      exact hinstall.mp h
    · intro h
      exact hinstall.mpr (h dpid port ((honly dpid port).mpr rfl) hnew)
  · have hold : ∀ dpid port, lldpInfo = some (dpid, port) → ¬ IsNew m.net deviceId dpid :=
      fun dpid port hinfo hnew' => hnew ⟨dpid, port, hinfo, hnew'⟩
    rw [discoverLink_of_old (recordPacketIn deviceId p lldpInfo m) hold]
    refine iff_of_true rfl fun dpid port hbeacon hnew' => ?_
    exact absurd hnew' (hold dpid port ((honly dpid port).mp hbeacon))

/-- A receive thread lives on exactly when each packet, as it is received, is harmless. -/
theorem isOk_streamReceiver_iff (packets : List StreamPacket) (m : TopologyManager) :
    EState.isOk (streamReceiver shortestPath deviceId packets m) = true ↔
      EState.EachPass (fun p m => Harmless shortestPath deviceId p (p.others m))
        (receive shortestPath deviceId) packets m := by
  rw [streamReceiver, EState.isOk_forM_iff_eachPass]
  refine EState.eachPass_congr (fun p m => ?_) packets m
  rw [receive, EState.modify_bind]
  exact isOk_handlePacketIn_iff (p.others m)

/-- The packet as a pass of the watchdog meets it: parsed, and without what it raises. -/
theorem finalState_handlePacketIn {lldpInfo : Option (Int × Int)}
    (h : parseLldpPacket p.payload = .ok lldpInfo) (m : TopologyManager) :
    EState.finalState (handlePacketIn shortestPath deviceId p) m =
      m.handlePacketIn shortestPath
        { now := p.now, deviceId := deviceId, ingressPort := p.ingressPort, lldpInfo := lldpInfo
          answers := p.answers } := by
  rw [EState.finalState, handlePacketIn_of_parse h, ← EState.finalState]
  unfold TopologyManager.handlePacketIn
  cases lldpInfo with
  | none => rfl
  | some info =>
    obtain ⟨dpid, port⟩ := info
    dsimp only
    by_cases hnew : IsNew m.net deviceId dpid
    · have hrun := @discoverLink_of_new shortestPath deviceId p
        (recordPacketIn deviceId p (some (dpid, port)) m) dpid hnew port
      rw [EState.finalState, hrun, ← EState.finalState,
        EState.finalState_bind_of_keeps fun _ _ => rfl, if_neg hnew.1, hnew.2, Option.isSome_none,
        if_neg Bool.false_ne_true]
      rfl
    · have hold : ∀ dpid' port', some (dpid, port) = some (dpid', port') →
          ¬ IsNew m.net deviceId dpid' := by
        intro dpid' port' heq
        cases heq
        exact hnew
      have hrun := @discoverLink_of_old shortestPath deviceId p
        (recordPacketIn deviceId p (some (dpid, port)) m) _ hold
      rw [EState.finalState_of_ok hrun]
      by_cases hself : dpid = deviceId
      · rw [if_pos hself]
        rfl
      · have hknown : (m.net.edges.lookup (.dpid dpid, .dpid deviceId)).isSome = true :=
          Option.isSome_iff_ne_none.mpr fun hnone => hnew ⟨hself, hnone⟩
        rw [if_neg hself, if_pos hknown]
        rfl

end Receive

end Ndtwin.Proxy

namespace Ndtwin.Spec

open Proxy StreamPacket

/-- Every beacon is read back and no frame is refused by an exception; a receive thread lives
    through the packets it gets exactly when each of them is harmless when it is received. -/
theorem receiver_survives_iff (shortestPath : ShortestPath) (deviceId : Int)
    (packets : List StreamPacket) (m : TopologyManager) :
    (∀ dpid port : Nat, dpid < 2 ^ 64 → port < 2 ^ 32 →
      ∃ frame, createLldpPacket dpid port = .ok frame ∧
        parseLldpPacket frame = .ok (some ((dpid : Int), (port : Int)))) ∧
    (∀ frame, ∃ info, parseLldpPacket frame = .ok info) ∧
    (EState.isOk (streamReceiver shortestPath deviceId packets m) = true ↔
      EState.EachPass (fun p m => Harmless shortestPath deviceId p (p.others m))
        (receive shortestPath deviceId) packets m) := by
  refine ⟨?_, parseLldpPacket_total, isOk_streamReceiver_iff packets m⟩
  intro dpid port hdpid hport
  obtain ⟨frame, hframe⟩ := exists_createLldpPacket hdpid hport
  exact ⟨frame, hframe, parseLldpPacket_createLldpPacket hframe⟩

/-! ## Two switches and a host behind the second -/

/-- The shortest path, where it has at most two hops. -/
def atMostTwoHops : ShortestPath := fun net src dst =>
  if src = dst then some [src]
  else if (net.edges.lookup (src, dst)).isSome then some [src, dst]
  else
    let between := net.nodes.keys.find? fun n =>
      (net.edges.lookup (src, n)).isSome && (net.edges.lookup (n, dst)).isSome
    between.map fun n => [src, n, dst]

/-- Two switches whose link has not been discovered. -/
def unlinkedSwitches : TopologyManager where
  switches := ((∅ : AssocMap Int P4Switch).set 1 {}).set 2 {}
  net := ((({} : NetGraph).addSwitch 1).addSwitch 2).addHost "10.0.0.2" "00:00:00:00:00:02" 2 1
  watchdog := { beaconInterval := 5 }

/-- The frame of `DPID:1,PORT:` and a number, as switch 1 sends it. -/
def beaconFrame (portText : List UInt8) : List UInt8 :=
  [0x01, 0x80, 0xc2, 0x00, 0x00, 0x0e, 0x0e, 0x00, 0x00, 0x00, 0x00, 0x01, 0x88, 0xcc] ++
    [0x44, 0x50, 0x49, 0x44, 0x3a, 0x31, 0x2c, 0x50, 0x4f, 0x52, 0x54, 0x3a] ++ portText

/-- The beacon of port 7 is read back, and its link taken up. -/
theorem smallPort_survived :
    (∃ frame, createLldpPacket (1 : Nat) (7 : Nat) = .ok frame ∧
      parseLldpPacket frame = .ok (some (((1 : Nat) : Int), ((7 : Nat) : Int)))) ∧
    EState.isOk (streamReceiver atMostTwoHops 2
      [{ now := 0, ingressPort := 2, payload := beaconFrame [0x37] }] unlinkedSwitches) = true := by
  have hframe : createLldpPacket 1 7 = .ok (beaconFrame [0x37]) := by decide +kernel
  have hparse := parseLldpPacket_createLldpPacket hframe
  refine ⟨(receiver_survives_iff atMostTwoHops 2 [] unlinkedSwitches).1 1 7 (by decide) (by decide),
    (receiver_survives_iff atMostTwoHops 2 _ unlinkedSwitches).2.2.mpr ⟨?_, ?_⟩⟩
  · -- both routes to the host are written: by port 7 of switch 1, and by port 1 of switch 2
    refine (isOk_handlePacketIn_iff unlinkedSwitches).mp ?_
    rw [handlePacketIn_of_parse hparse]
    decide +kernel
  · split <;> trivial

/-- The beacon of a port that has no two bytes, 70000, is read back too, and ends the receive
    thread: the route of switch 1 to the host would leave by that port. -/
theorem bigPort_ends_receiver :
    createLldpPacket 1 70000 = .ok (beaconFrame [0x37, 0x30, 0x30, 0x30, 0x30]) ∧
    EState.isOk (streamReceiver atMostTwoHops 2
      [{ now := 0, ingressPort := 2, payload := beaconFrame [0x37, 0x30, 0x30, 0x30, 0x30] }]
      unlinkedSwitches) = false := by
  have hframe : createLldpPacket 1 70000 = .ok (beaconFrame [0x37, 0x30, 0x30, 0x30, 0x30]) := by
    decide +kernel
  have hparse := parseLldpPacket_createLldpPacket hframe
  refine ⟨hframe, Bool.eq_false_iff.mpr fun h => ?_⟩
  have hharmless := ((isOk_streamReceiver_iff _ _).mp h).1
  have hfirst := (isOk_handlePacketIn_iff unlinkedSwitches).mpr hharmless
  rw [handlePacketIn_of_parse hparse] at hfirst
  revert hfirst
  decide +kernel

end Ndtwin.Spec
