import SecDetector.Usage.GetData

/-!
# Connections without a login

`getSSHInfoAll` takes the connections that `netstat` lists and the logins that `last` lists, and
takes a login away for every connection of its address.  What it reports of an address is what comes
behind as many of its connections as there are logins (`getSSHInfoAll_connections`).

Only a login from an address with a dot in it counts.  The others, from IPv6 addresses among them,
are stored with an empty address, and all connections of such an address are reported.  A line that
is longer than the buffer is read as two, and in a line of `netstat` with less than five words the
last of them is taken for the address.
-/

namespace SecDetector.Usage

open SecDetector.Lib

/-! ## The listings -/

/-- What is in front of the last colon, and what is behind it. -/
def splitAtLastColon (s : Bytes) : Option (Bytes × Bytes) :=
  if 0x3a ∈ s then
    some ((s.reverse.dropWhile (· ≠ 0x3a)).tail.reverse, (s.reverse.takeWhile (· ≠ 0x3a)).reverse)
  else none

/-- A line of `netstat`: the token that is there after `>>` five times. -/
def ConnectionInfo.ofNetstat (line : Bytes) : ConnectionInfo :=
  let token := ((words (line.takeWhile (· ≠ 0))).take 5).getLastD []
  match splitAtLastColon token with
  | some (sourceIpAddress, sourcePort) => ⟨sourceIpAddress, sourcePort⟩
  | none => ⟨[], []⟩

/-- A line of `last`: only IPv4 addresses are stored. -/
def ConnectionInfo.ofLast (line : Bytes) : ConnectionInfo :=
  let ipAddress := (words (line.takeWhile (· ≠ 0))).getD 2 []
  if 0x2e ∈ ipAddress then
    match splitAtLastColon ipAddress with
    | some (sourceIpAddress, sourcePort) => ⟨sourceIpAddress, sourcePort⟩
    | none => ⟨ipAddress, []⟩
  else ⟨[], []⟩

/-- The argument is what the pipe gives, nothing if there is no pipe. -/
def getSSHConnections : Option Bytes → List ConnectionInfo
  | none => []
  | some out => (fgetsAll 256 255 [] out).map ConnectionInfo.ofNetstat

def getLoggedInUserConnections : Option Bytes → List ConnectionInfo
  | none => []
  | some out => (fgetsAll 256 255 [] out).map ConnectionInfo.ofLast

/-! ### What the listings are read as -/

theorem splitAtLastColon_append (address : Bytes) {port : Bytes} (hport : 0x3a ∉ port) :
    splitAtLastColon (address ++ 0x3a :: port) = some (address, port) := by
  have hbehind : ∀ c ∈ port.reverse, decide (c ≠ 0x3a) = true := by
    intro c hc
    rw [decide_eq_true_eq]
    rintro rfl
    exact hport (List.mem_reverse.mp hc)
  have hreverse : (address ++ 0x3a :: port).reverse = port.reverse ++ 0x3a :: address.reverse := by
    simp
  rw [splitAtLastColon, if_pos (by simp), hreverse, List.dropWhile_append_of_pos hbehind,
    List.takeWhile_append_of_pos hbehind]
  simp

/-- A line of `netstat`: words with the space behind them, the address and the port of the peer, and
what is behind these. -/
structure NetstatLine where
  proto : Bytes × ℕ
  recvQ : Bytes × ℕ
  sendQ : Bytes × ℕ
  localAddress : Bytes × ℕ
  peer : ConnectionInfo
  gap : ℕ
  rest : Bytes

namespace NetstatLine

variable (l : NetstatLine)

def peerText : Bytes := l.peer.sourceIpAddress ++ 0x3a :: l.peer.sourcePort

def words : List (Bytes × ℕ) :=
  [l.proto, l.recvQ, l.sendQ, l.localAddress, (l.peerText, l.gap)]

def text : Bytes := spaced l.words ++ l.rest

/-- The columns are words, and the line fits into the buffer. -/
structure Plain : Prop where
  words : ∀ c ∈ l.words, IsWord c.1
  address : l.peer.sourceIpAddress ≠ []
  port : 0x3a ∉ l.peer.sourcePort
  fits : Fits l.text

variable {l}

theorem Plain.ofNetstat_text (h : l.Plain) :
    ConnectionInfo.ofNetstat (l.text ++ [0x0a]) = l.peer := by
  rw [ConnectionInfo.ofNetstat, h.fits.takeWhile, text, List.append_assoc, words_spaced h.words]
  show (match splitAtLastColon l.peerText with
    | some (sourceIpAddress, sourcePort) => ConnectionInfo.mk sourceIpAddress sourcePort
    | none => ⟨[], []⟩) = l.peer
  rw [peerText, splitAtLastColon_append _ h.port]

end NetstatLine

/-- A line of `last`: who is logged in, on which terminal and from where, and since when. -/
structure LastLine where
  username : Bytes × ℕ
  pts : Bytes × ℕ
  address : Bytes
  gap : ℕ
  rest : Bytes

namespace LastLine

variable (l : LastLine)

def words : List (Bytes × ℕ) := [l.username, l.pts, (l.address, l.gap)]

def text : Bytes := spaced l.words ++ l.rest

/-- What the line is stored as. -/
def login : ConnectionInfo := ⟨if 0x2e ∈ l.address then l.address else [], []⟩

/-- The columns are words, no address has both a dot and a colon, and the line fits into the
buffer. -/
structure Plain : Prop where
  words : ∀ c ∈ l.words, IsWord c.1
  address : 0x2e ∈ l.address → 0x3a ∉ l.address
  fits : Fits l.text

variable {l}

theorem Plain.ofLast_text (h : l.Plain) : ConnectionInfo.ofLast (l.text ++ [0x0a]) = l.login := by
  rw [ConnectionInfo.ofLast, h.fits.takeWhile, text, List.append_assoc, words_spaced h.words]
  show (if 0x2e ∈ l.address then
    match splitAtLastColon l.address with
    | some (sourceIpAddress, sourcePort) => ConnectionInfo.mk sourceIpAddress sourcePort
    | none => ⟨l.address, []⟩
    else ⟨[], []⟩) = l.login
  rw [login]
  split
  · rename_i hdot
    rw [splitAtLastColon, if_neg (h.address hdot)]
  · rfl

end LastLine

/-- **The listing of `netstat` is read line by line.** -/
theorem getSSHConnections_listing {lines : List NetstatLine} (hlines : ∀ l ∈ lines, l.Plain) :
    getSSHConnections (some (printLines (lines.map NetstatLine.text))) =
      lines.map NetstatLine.peer := by
  have hfits : ∀ line ∈ lines.map NetstatLine.text, Fits line :=
    List.forall_mem_map.mpr fun l hl => (hlines l hl).fits
  rw [getSSHConnections, fgetsAll_printLines hfits, List.map_map, List.map_map]
  exact List.map_congr_left fun l hl => (hlines l hl).ofNetstat_text

/-- **The listing of `last` is read line by line.** -/
theorem getLoggedInUserConnections_listing {lines : List LastLine}
    (hlines : ∀ l ∈ lines, l.Plain) :
    getLoggedInUserConnections (some (printLines (lines.map LastLine.text))) =
      lines.map LastLine.login := by
  have hfits : ∀ line ∈ lines.map LastLine.text, Fits line :=
    List.forall_mem_map.mpr fun l hl => (hlines l hl).fits
  rw [getLoggedInUserConnections, fgetsAll_printLines hfits, List.map_map, List.map_map]
  exact List.map_congr_left fun l hl => (hlines l hl).ofLast_text

/-! ## The difference -/

section Difference

def isFrom (address : Bytes) (c : ConnectionInfo) : Bool := c.sourceIpAddress = address

variable {address : Bytes}

/-- The login that is taken away is one of the connection's address. -/
theorem countP_eraseP {c : ConnectionInfo} {loggedIn : List ConnectionInfo}
    (hany : loggedIn.any (isFrom c.sourceIpAddress) = true) :
    loggedIn.countP (isFrom address) =
      (loggedIn.eraseP (isFrom c.sourceIpAddress)).countP (isFrom address) +
        if isFrom address c then 1 else 0 := by
  obtain ⟨login, hmem, hlogin⟩ := List.any_eq_true.mp hany
  obtain ⟨login, before, after, -, hlogin, rfl, herase⟩ := List.exists_of_eraseP hmem hlogin
  have hfrom : isFrom address login = isFrom address c := by
    rw [isFrom, of_decide_eq_true hlogin]
    rfl
  rw [herase, List.countP_append, List.countP_append, List.countP_cons, hfrom, add_assoc]

/-- **The connections of an address are reported but for as many as it has logins.** -/
theorem filter_unauthenticatedConnections (ssh loggedIn : List ConnectionInfo) :
    (unauthenticatedConnections ssh loggedIn).filter (isFrom address) =
      (ssh.filter (isFrom address)).drop (loggedIn.countP (isFrom address)) := by
  induction ssh generalizing loggedIn with
  | nil => simp [unauthenticatedConnections]
  | cons c ssh ih =>
      have hunfold : unauthenticatedConnections (c :: ssh) loggedIn =
          if loggedIn.any (isFrom c.sourceIpAddress) then
            unauthenticatedConnections ssh (loggedIn.eraseP (isFrom c.sourceIpAddress))
          else c :: unauthenticatedConnections ssh loggedIn := rfl
      rw [hunfold]
      by_cases hany : loggedIn.any (isFrom c.sourceIpAddress) = true
      · rw [if_pos hany, ih, countP_eraseP hany]
        by_cases hc : isFrom address c = true
        · rw [if_pos hc, List.filter_cons_of_pos hc, List.drop_succ_cons]
        · rw [if_neg hc, List.filter_cons_of_neg hc, Nat.add_zero]
      · rw [if_neg hany]
        by_cases hc : isFrom address c = true
        · -- no login has this address
          obtain rfl : c.sourceIpAddress = address := of_decide_eq_true hc
          have hnone : loggedIn.countP (isFrom c.sourceIpAddress) = 0 := by
            rw [List.countP_eq_zero]
            exact fun login hmem hlogin => hany (List.any_eq_true.mpr ⟨login, hmem, hlogin⟩)
          rw [List.filter_cons_of_pos hc, List.filter_cons_of_pos hc, ih, hnone]
          rfl
        · rw [List.filter_cons_of_neg hc, List.filter_cons_of_neg hc, ih]

theorem unauthenticatedConnections_sublist (ssh loggedIn : List ConnectionInfo) :
    (unauthenticatedConnections ssh loggedIn).Sublist ssh := by
  induction ssh generalizing loggedIn with
  | nil => exact .slnil
  | cons c ssh ih =>
      rw [unauthenticatedConnections]
      split
      · exact (ih _).cons c
      · exact (ih _).cons_cons c

end Difference

/-! ## The report -/

/-- How many logins there are from an address that the code counts. -/
def loginsFrom (logins : List LastLine) (address : Bytes) : ℕ :=
  if 0x2e ∈ address then logins.countP fun l => l.address = address else 0

theorem isFrom_login {address : Bytes} (haddress : address ≠ []) (l : LastLine) :
    isFrom address l.login = true ↔ 0x2e ∈ address ∧ l.address = address := by
  rw [isFrom, decide_eq_true_eq, LastLine.login]
  dsimp only
  split
  · rename_i hdot
    constructor
    · rintro rfl
      exact ⟨hdot, rfl⟩
    · exact And.right
  · rename_i hno
    refine iff_of_false haddress.symm ?_
    rintro ⟨hdot, rfl⟩
    exact hno hdot

theorem countP_isFrom (logins : List LastLine) {address : Bytes} (haddress : address ≠ []) :
    (logins.map LastLine.login).countP (isFrom address) = loginsFrom logins address := by
  rw [List.countP_map, loginsFrom]
  split
  · rename_i hdot
    refine List.countP_congr fun l _ => ?_
    rw [Function.comp_apply, isFrom_login haddress, decide_eq_true_eq, and_iff_right hdot]
  · rename_i hno
    rw [List.countP_eq_zero]
    intro l _
    rw [Function.comp_apply, isFrom_login haddress]
    exact fun h => hno h.1

variable {D : Type} (F : NumberFormat D)

/-- **What is reported of the two listings**: the connections of an address that are behind as many
others as it has logins, in the order of the listing, and their number. -/
theorem getSSHInfoAll_connections {netstat : List NetstatLine} {last : List LastLine}
    (hnetstat : ∀ l ∈ netstat, l.Plain) (hlast : ∀ l ∈ last, l.Plain) :
    ∃ connections : List ConnectionInfo,
      let report := getSSHInfoAll F
        (getSSHConnections (some (printLines (netstat.map NetstatLine.text))))
        (getLoggedInUserConnections (some (printLines (last.map LastLine.text))))
      report.member (str "UnauthenticatedSSHConnections") =
          .array (connections.map connectionObject) ∧
        report.member (str "UnauthenticatedSSHConnectionCount") =
          .number (F.ofInt connections.length) ∧
        connections.Sublist (netstat.map NetstatLine.peer) ∧
        ∀ address ≠ [], connections.filter (isFrom address) =
          ((netstat.map NetstatLine.peer).filter (isFrom address)).drop
            (loginsFrom last address) := by
  rw [getSSHConnections_listing hnetstat, getLoggedInUserConnections_listing hlast]
  refine ⟨unauthenticatedConnections (netstat.map NetstatLine.peer) (last.map LastLine.login),
    ?_, ?_, unauthenticatedConnections_sublist _ _, fun address haddress => ?_⟩
  · rw [getSSHInfoAll, Json.member_ofMembers]
    rfl
  · rw [getSSHInfoAll, Json.member_ofMembers]
    rfl
  · rw [filter_unauthenticatedConnections, countP_isFrom last haddress]

/-! ### Two addresses -/

def establishedFrom (address port : String) : NetstatLine :=
  ⟨(str "tcp", 7), (str "0", 6), (str "0", 0), (str "10.0.0.5:22", 3), ⟨str address, str port⟩, 2,
    str "ESTABLISHED 77/sshd: root"⟩

def rootFrom (address : String) : LastLine :=
  ⟨(str "root", 3), (str "pts/0", 7), str address, 2, str "Mon Nov 20 12:00   still logged in"⟩

def twoAddresses : List NetstatLine :=
  [establishedFrom "10.0.0.1" "5000", establishedFrom "fe80::1" "5001",
    establishedFrom "10.0.0.1" "5002"]

def twoLogins : List LastLine := [rootFrom "10.0.0.1", rootFrom "fe80::1"]

theorem twoAddresses_plain : ∀ l ∈ twoAddresses, l.Plain := by
  have hall : ∀ l ∈ twoAddresses, (∀ c ∈ l.words, IsWord c.1) ∧ l.peer.sourceIpAddress ≠ [] ∧
      0x3a ∉ l.peer.sourcePort ∧ Fits l.text := by
    decide +kernel
  exact fun l hl => ⟨(hall l hl).1, (hall l hl).2.1, (hall l hl).2.2.1, (hall l hl).2.2.2⟩

theorem twoLogins_plain : ∀ l ∈ twoLogins, l.Plain := by
  have hall : ∀ l ∈ twoLogins, (∀ c ∈ l.words, IsWord c.1) ∧
      (0x2e ∈ l.address → 0x3a ∉ l.address) ∧ Fits l.text := by
    decide +kernel
  exact fun l hl => ⟨(hall l hl).1, (hall l hl).2.1, (hall l hl).2.2⟩

/-- There is a login from each of the two addresses.  One connection of the first is taken for it,
but that of the second is reported. -/
theorem getSSHInfoAll_connections_two : ∃ connections : List ConnectionInfo,
    (getSSHInfoAll integers
      (getSSHConnections (some (printLines (twoAddresses.map NetstatLine.text))))
      (getLoggedInUserConnections (some (printLines (twoLogins.map LastLine.text))))).member
        (str "UnauthenticatedSSHConnections") = .array (connections.map connectionObject) ∧
      connections.filter (isFrom (str "10.0.0.1")) = [⟨str "10.0.0.1", str "5002"⟩] ∧
      connections.filter (isFrom (str "fe80::1")) = [⟨str "fe80::1", str "5001"⟩] := by
  obtain ⟨connections, hreport, -, -, haddress⟩ :=
    getSSHInfoAll_connections integers twoAddresses_plain twoLogins_plain
  refine ⟨connections, hreport, ?_, ?_⟩
  · exact (haddress _ (by decide)).trans (by decide +kernel)
  · exact (haddress _ (by decide)).trans (by decide +kernel)

end SecDetector.Usage
