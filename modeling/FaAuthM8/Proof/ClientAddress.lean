import FaAuthM8.Routes.Login

/-!
# A client does not choose its address

The trusted proxies append one entry each, so whatever the client has sent stands to the left of as many entries
as the service counts from the right. Blank entries are dropped before they are counted, and no entry of a proxy
is blank, so nothing the client sends moves the place that is read.
-/

namespace FaAuthM8

/-- The address that a trusted proxy appends: there is something in it, and no comma. -/
structure IsHop (entry : String) : Prop where
  comma : ',' ∉ entry.toList
  blank : Parsing.strip entry.toList ≠ []

/-- The header as a trusted proxy passes it on: the entry comes after a comma and any blanks, or stands alone
where there was no header. -/
def appendHop (blanks : String) (header : Option String) (entry : String) : Option String :=
  match header with
  | none => some entry
  | some sent => some (sent ++ "," ++ blanks ++ entry)

/-- The header that reaches the service. -/
def throughProxies (blanks : String) (sent : Option String) (entries : List String) : Option String :=
  entries.foldl (appendHop blanks) sent

/-- The entries of a header that may be missing. -/
def headerIps (header : Option String) : List (List Char) :=
  header.elim [] fun xff => forwardedIps xff.toList

section

variable {blanks entry : String} {entries : List String} {settings : ProxySettings}

theorem forwardedIps_append_cons (sent rest : List Char) :
    forwardedIps (sent ++ ',' :: rest) = forwardedIps sent ++ forwardedIps rest := by
  simp only [forwardedIps, List.splitOn_append_cons_self, List.map_append, List.filter_append]

theorem forwardedIps_of_not_mem {text : List Char} (hcomma : ',' ∉ text) :
    forwardedIps text = [Parsing.strip text].filter (!·.isEmpty) := by
  simp only [forwardedIps, List.splitOn_eq_singleton hcomma, List.map_cons, List.map_nil]

theorem comma_not_mem (hblanks : ∀ c ∈ blanks.toList, Words.isSpace c = true) : ',' ∉ blanks.toList := by
  intro hmem
  have hspace := hblanks ',' hmem
  simp [Words.isSpace] at hspace

theorem headerIps_appendHop (hblanks : ∀ c ∈ blanks.toList, Words.isSpace c = true) (hentry : IsHop entry)
    (header : Option String) :
    headerIps (appendHop blanks header entry) = headerIps header ++ [Parsing.strip entry.toList] := by
  have hkept : [Parsing.strip entry.toList].filter (!·.isEmpty) = [Parsing.strip entry.toList] := by
    simp [hentry.blank]
  cases header with
  | none =>
      show forwardedIps entry.toList = _
      rw [forwardedIps_of_not_mem hentry.comma, hkept]
      rfl
  | some sent =>
      have hcomma : ',' ∉ blanks.toList ++ entry.toList := by
        simp [comma_not_mem hblanks, hentry.comma]
      have htext : (sent ++ "," ++ blanks ++ entry).toList =
          sent.toList ++ ',' :: (blanks.toList ++ entry.toList) := by
        simp
      show forwardedIps (sent ++ "," ++ blanks ++ entry).toList = forwardedIps sent.toList ++ _
      rw [htext, forwardedIps_append_cons, forwardedIps_of_not_mem hcomma, Parsing.strip_append hblanks, hkept]

/-- What the client has sent stays on the left of the proxies' entries. -/
theorem headerIps_throughProxies (hblanks : ∀ c ∈ blanks.toList, Words.isSpace c = true)
    (hentries : ∀ entry ∈ entries, IsHop entry) (sent : Option String) :
    headerIps (throughProxies blanks sent entries) =
      headerIps sent ++ entries.map fun entry => Parsing.strip entry.toList := by
  induction entries generalizing sent with
  | nil => simp [throughProxies]
  | cons entry rest ih =>
      have hentry := hentries entry List.mem_cons_self
      have hrest : ∀ entry ∈ rest, IsHop entry := fun entry hmem =>
        hentries entry (List.mem_cons_of_mem _ hmem)
      show headerIps (throughProxies blanks (appendHop blanks sent entry) rest) = _
      rw [ih hrest, headerIps_appendHop hblanks hentry]
      simp

theorem headerIps_filter (header : Option String) : headerIps (header.filter (· ≠ "")) = headerIps header := by
  cases header with
  | none => rfl
  | some xff =>
      by_cases hempty : xff = ""
      · subst hempty
        decide
      · simp [Option.filter, hempty]

theorem clientIp_eq (hcount : 0 < settings.trustedProxyCount) {header peer : Option String}
    {client : List (List Char)} {first : List Char} {rest : List (List Char)}
    (hips : headerIps header = client ++ first :: rest)
    (hlength : rest.length + 1 = settings.trustedProxyCount) :
    clientIp settings ⟨header, peer⟩ =
      if settings.isAddress (String.ofList (stripPort first)) then String.ofList (stripPort first)
      else peer.getD "unknown" := by
  rw [← headerIps_filter] at hips
  rw [clientIp, if_pos hcount]
  cases hheader : header.filter (· ≠ "") with
  | none =>
      rw [hheader] at hips
      simp [headerIps] at hips
  | some xff =>
      rw [hheader] at hips
      have hxff : forwardedIps xff.toList = client ++ first :: rest := hips
      have hplace : (client ++ first :: rest).length - settings.trustedProxyCount = client.length := by
        simp only [List.length_append, List.length_cons]
        omega
      have henough : settings.trustedProxyCount ≤ (client ++ first :: rest).length := by
        simp only [List.length_append, List.length_cons]
        omega
      have hread : (client ++ first :: rest)[(client ++ first :: rest).length -
          settings.trustedProxyCount]? = some first := by
        rw [hplace]
        simp
      simp only [hxff, if_pos henough, hread]

/-- The address is that of the first trusted entry, without its port, or else the peer's. -/
theorem clientIp_throughProxies (hblanks : ∀ c ∈ blanks.toList, Words.isSpace c = true)
    (hentries : ∀ other ∈ entry :: entries, IsHop other)
    (hlength : (entry :: entries).length = settings.trustedProxyCount) (peer sent : Option String) :
    clientIp settings ⟨throughProxies blanks sent (entry :: entries), peer⟩ =
      if settings.isAddress (String.ofList (stripPort entry.toList)) then
        String.ofList (stripPort entry.toList)
      else peer.getD "unknown" := by
  have hips := headerIps_throughProxies hblanks hentries sent
  rw [List.map_cons] at hips
  have hport : stripPort (Parsing.strip entry.toList) = stripPort entry.toList := by
    simp only [stripPort, Parsing.strip_strip]
  have hcount : 0 < settings.trustedProxyCount := by
    rw [← hlength]
    simp
  rw [clientIp_eq hcount hips (by simpa using hlength), hport]

/-- Two requests that reach the service through the same proxies have one address, whatever their clients have
sent. -/
theorem clientIp_independent (settings : ProxySettings) (hcount : 1 ≤ settings.trustedProxyCount)
    {blanks : String} (hblanks : ∀ c ∈ blanks.toList, Words.isSpace c = true) {entries : List String}
    (hlength : entries.length = settings.trustedProxyCount) (hentries : ∀ entry ∈ entries, IsHop entry)
    (peer first second : Option String) :
    clientIp settings ⟨throughProxies blanks first entries, peer⟩ =
      clientIp settings ⟨throughProxies blanks second entries, peer⟩ := by
  cases entries with
  | nil =>
      simp only [List.length_nil] at hlength
      omega
  | cons entry rest =>
      rw [clientIp_throughProxies hblanks hentries hlength, clientIp_throughProxies hblanks hentries hlength]

end

/-- Four decimal numbers of one byte. -/
def dottedQuad (text : String) : Bool :=
  let groups := text.toList.splitOn '.'
  groups.length = 4 && groups.all fun group =>
    !group.isEmpty && group.all Char.isDigit && Nat.ofDigitChars 10 group 0 ≤ 255

/-- Two proxies pass on what a client has forged, and a request that came without the header. -/
theorem clientIp_independent_forged :
    clientIp ⟨2, dottedQuad⟩
        ⟨throughProxies " " (some "9.9.9.9,, [::1]:80, ") ["203.0.113.5:4711", "10.0.0.2"], some "10.0.0.1"⟩ =
      clientIp ⟨2, dottedQuad⟩
        ⟨throughProxies " " none ["203.0.113.5:4711", "10.0.0.2"], some "10.0.0.1"⟩ ∧
    clientIp ⟨2, dottedQuad⟩
        ⟨throughProxies " " none ["203.0.113.5:4711", "10.0.0.2"], some "10.0.0.1"⟩ = "203.0.113.5" := by
  have hentries : ∀ entry ∈ ["203.0.113.5:4711", "10.0.0.2"], IsHop entry := by
    intro entry hmem
    simp only [List.mem_cons, List.not_mem_nil, or_false] at hmem
    obtain rfl | rfl := hmem
    · exact ⟨by decide, by decide⟩
    · exact ⟨by decide, by decide⟩
  have hblanks : " ".toList.all Words.isSpace = true := by
    decide +kernel
  refine ⟨?_, by decide +kernel⟩
  exact clientIp_independent ⟨2, dottedQuad⟩ (by decide) (List.all_eq_true.1 hblanks) (by decide) hentries
    (some "10.0.0.1") _ _

end FaAuthM8
