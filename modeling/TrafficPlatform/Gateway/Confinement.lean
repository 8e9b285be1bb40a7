import TrafficPlatform.Gateway
import TrafficPlatform.Kit.Uri
import TrafficPlatform.Kit.Ends

/-!
# Where a request is sent

`_forward` appends the decoded path to the base URL as it is, so that what the client has escaped
means something else in the URL. `upstream_confined_iff` says for which paths and queries it does
not.
-/

namespace TrafficPlatform
open Kit Gateway GatewayService

/-! ### What the client sends -/

/-- What the ASGI server and the framework make of a request: the path parameter of the route, of
the octets that the rest of the raw path percent-decodes to; and `request.url.query`, of the host
and the decoded path before that parameter, the parameter and the raw query. -/
structure Asgi where
  upstreamPath : List UInt8 → List Char
  urlQuery : (before path rawQuery : List Char) → List Char

/-- What is before the path parameter has no delimiter and no bracket, and the query no blank and no
control character. -/
def Ordinary (before rawQuery : List Char) : Prop := (∀ c ∈ before, c ∉ ['?', '#', '[', ']']) ∧
    ∀ c ∈ rawQuery, ' ' < c

/-- What is known of them. -/
structure Asgi.Conforms (asgi : Asgi) : Prop where
  /-- UTF-8 is read, and a parameter without a line break is the whole path. -/
  text : ∀ path, '\n' ∉ path → asgi.upstreamPath (utf8Text path) = path
  /-- `.*` matches no line break. -/
  line : ∀ octets, '\n' ∉ asgi.upstreamPath octets
  /-- Octets that are not UTF-8 are replaced, each by a character at most, -/
  octet : ∀ o octets, (asgi.upstreamPath (o :: octets)).length ≤ (asgi.upstreamPath octets).length + 1
  /-- and a character by itself. -/
  char : ∀ c octets, (asgi.upstreamPath (String.utf8EncodeChar c ++ octets)).length ≤
    (asgi.upstreamPath octets).length + 1
  /-- The first `?` after the host and the path starts the query, and `#` ends it. -/
  query : ∀ before path rawQuery, Ordinary before rawQuery → (∀ c ∈ path, c ∉ ['?', '#']) →
    asgi.urlQuery before path rawQuery = rawQuery.takeWhile (· != '#')
  fragment : ∀ before path rawQuery, '#' ∉ asgi.urlQuery before path rawQuery

/-- What is before the path parameter in `request.url`, after the scheme. -/
def HttpRequest.before (request : HttpRequest) : List Char :=
  (((request.headers.get "host").getD "") ++ "/gw/" ++ request.apiSlug ++ "/" ++
    request.version ++ "/").toList

/-- The request as the route reads it, when the client sends a path and a query. -/
def HttpRequest.sent (asgi : Asgi) (request : HttpRequest) (rawPath rawQuery : List Char) :
    HttpRequest :=
  let path := asgi.upstreamPath (percentDecode rawPath)
  { request with
    upstreamPath := .ofList path
    queryString := .ofList (asgi.urlQuery request.before path rawQuery) }

/-! ### Base URLs -/

/-- A URL that `AnyHttpUrl` has parsed, without query and fragment. -/
structure HttpUrl where
  scheme : List Char
  authority : List Char
  path : List Char
  scheme_ok : scheme ≠ [] ∧ ∀ c ∈ scheme, c ∉ [':', '/', '?', '#']
  authority_ok : authority ≠ [] ∧ ∀ c ∈ authority, c ∉ ['/', '?', '#']
  path_ok : (path = [] ∨ path.head? = some '/') ∧ ∀ c ∈ path, c ∉ ['?', '#']
  normal : ∀ s ∈ pathSegments path, isDotSegment s = false

namespace HttpUrl

/-- The scheme and the authority, as they stand before the path. -/
def origin (base : HttpUrl) : List Char := base.scheme ++ ':' :: '/' :: '/' :: base.authority

def text (base : HttpUrl) : String := .ofList (base.origin ++ base.path)

/-- The path without the slashes at its end. -/
def root (base : HttpUrl) : List Char := dropRightWhile (· == '/') base.path

/-- The path that is appended, and the query. -/
def appended (path query : List Char) : List Char :=
  (if path = [] then [] else '/' :: path.dropWhile (· == '/')) ++
    if query = [] then [] else '?' :: query

variable {base : HttpUrl}

theorem dropRightWhile_append {p : Char → Bool} {l l' : List Char} (h : ∀ c ∈ l.getLast?, p c = false) :
    dropRightWhile p (l ++ l') = l ++ dropRightWhile p l' := by
  unfold dropRightWhile
  rw [List.reverse_append, List.dropWhile_append]
  split
  · rename_i hempty
    rw [List.isEmpty_iff.1 hempty, List.reverse_nil, List.append_nil]
    cases hl : l.reverse with
    | nil => rw [List.reverse_eq_nil_iff.1 hl]; rfl
    | cons c t =>
      have hlast : l.getLast? = some c := by rw [← List.head?_reverse, hl]; rfl
      rw [List.dropWhile_cons_of_neg (by rw [h c hlast]; exact Bool.false_ne_true), ← hl,
        List.reverse_reverse]
  · rw [List.reverse_append, List.reverse_reverse]

theorem root_append (base : HttpUrl) : ∃ slashes : List Char, base.path = base.root ++ slashes ∧
    ∀ c ∈ slashes, c = '/' := by
  refine ⟨(base.path.reverse.takeWhile (· == '/')).reverse, ?_, fun c hc => ?_⟩
  · rw [root, dropRightWhile, ← List.reverse_append, List.takeWhile_append_dropWhile,
      List.reverse_reverse]
  · exact beq_iff_eq.1 (List.mem_takeWhile_imp (p := (· == '/')) (List.mem_reverse.1 hc))

theorem mem_root {c : Char} (h : c ∈ base.root) : c ∉ ['?', '#'] := by
  obtain ⟨slashes, hpath, -⟩ := base.root_append
  exact base.path_ok.2 c (by rw [hpath]; exact List.mem_append_left _ h)

theorem root_head : base.root = [] ∨ base.root.head? = some '/' := by
  obtain ⟨slashes, hpath, -⟩ := base.root_append
  cases hroot : base.root with
  | nil => exact .inl rfl
  | cons c t =>
    rw [hroot] at hpath
    have hhead := base.path_ok.1
    rw [hpath] at hhead
    exact .inr (hhead.resolve_left (by simp))

theorem pathSegments_append (l path : List Char) : pathSegments (l ++ '/' :: path) =
    pathSegments l ++ path.splitOn '/' := by
  unfold pathSegments
  rw [List.splitOn_append_cons_self]
  obtain ⟨s, segments, hsplit⟩ := List.exists_cons_of_ne_nil (List.splitOn_ne_nil '/' l)
  rw [hsplit]
  rfl

theorem root_normal (base : HttpUrl) : ∀ s ∈ pathSegments base.root, isDotSegment s = false := by
  obtain ⟨slashes, hpath, hslashes⟩ := base.root_append
  intro s hs
  refine base.normal s ?_
  rw [hpath]
  cases slashes with
  | nil => rwa [List.append_nil]
  | cons c t =>
    rw [hslashes c List.mem_cons_self, pathSegments_append]
    exact List.mem_append_left _ hs

theorem upstreamUrl_text (base : HttpUrl) (path query : List Char) :
    (upstreamUrl base.text (.ofList path) (.ofList query)).toList = base.origin ++
        (base.root ++ appended path query) := by
  have hbase : (rstripSlash base.text).toList = base.origin ++ base.root := by
    rw [rstripSlash, text, String.toList_ofList, String.toList_ofList]
    refine dropRightWhile_append fun c hc => ?_
    have hmem : c ∈ base.authority := by
      obtain ⟨d, t, hd⟩ := List.exists_cons_of_ne_nil base.authority_ok.1
      have hlast : base.origin.getLast? = base.authority.getLast? := by
        rw [origin, hd]
        simp [List.getLast?_append, List.getLast?_cons]
      rw [hlast] at hc
      exact List.mem_of_getLast? hc
    exact beq_eq_false_iff_ne.2 fun he => base.authority_ok.2 c hmem (by rw [he]; decide)
  have hempty : ∀ l : List Char, String.ofList l ≠ "" ↔ l ≠ [] := by
    intro l
    rw [← String.ofList_nil, Ne, String.ofList_inj]
  unfold upstreamUrl appended
  dsimp only
  simp only [hempty, lstripSlash, String.toList_ofList]
  split <;> split <;> simp_all [String.toList_append]

end HttpUrl

/-! ### Confinement -/

/-- The URL `sent`, read by RFC 3986, keeps the host of the base URL, has a path under the base
URL's path that goes on with what denotes the client's octets, and has the client's query. -/
structure Confined (base : HttpUrl) (octets : List UInt8) (rawQuery : List Char)
    (sent : Uri) : Prop where
  host : sent.scheme = some base.scheme ∧ sent.authority = some base.authority
  under : ∃ rest, removeDotSegments sent.path = base.root ++ rest ∧
    ((rest = [] ∧ octets = []) ∨ ∃ tail, rest = '/' :: tail ∧ percentDecode tail = octets)
  query : sent.query.getD [] = rawQuery

/-- The path has no `?`, no `#`, no escape, no dot segment and no slash in front. -/
structure PlainPath (path : List Char) : Prop where
  delimiters : ∀ c ∈ path, c ∉ ['?', '#']
  escapes : NoEscape path
  dots : ∀ s ∈ path.splitOn '/', isDotSegment s = false
  slash : path.head? ≠ some '/'

variable {base : HttpUrl} {octets : List UInt8} {path rawQuery : List Char} {asgi : Asgi}

/-- The path of a URL that goes on with `l` and a query. -/
def pathPart (l query : List Char) : List Char :=
  (cut '?' (cut '#' (l ++ if query = [] then [] else '?' :: query)).1).1

theorem pathPart_eq (l query : List Char) :
    pathPart l query = l.takeWhile fun c => c != '?' && c != '#' := by
  have hcut : ∀ s : List Char,
      (cut '?' (cut '#' s).1).1 = s.takeWhile fun c => c != '?' && c != '#' := by
    intro s
    simp only [cut, List.takeWhile_takeWhile]
    congr 1
    funext c
    rw [Bool.decide_and, Bool.decide_eq_true, Bool.decide_eq_true]
  rw [pathPart, hcut]
  induction l with
  | nil => split <;> simp
  | cons c l ih =>
    rw [List.cons_append, List.takeWhile_cons, List.takeWhile_cons, ih]

theorem pathPart_of_plain {l : List Char} (h : ∀ c ∈ l, c ∉ ['?', '#']) (query : List Char) :
    pathPart l query = l := by
  rw [pathPart_eq]
  refine List.takeWhile_eq_self_iff.2 fun c hc => ?_
  have hc := h c hc
  simp only [List.mem_cons, List.not_mem_nil, or_false, not_or] at hc
  simp [hc.1, hc.2]

theorem query_of_plain {l : List Char} (h : ∀ c ∈ l, c ∉ ['?', '#']) (query : List Char) :
    (cut '?' (cut '#' (l ++ if query = [] then [] else '?' :: query)).1).2.getD [] = query.takeWhile
        (· != '#') := by
  rw [cut_append fun hmem => h '#' hmem (by simp)]
  dsimp only
  rw [cut_append fun hmem => h '?' hmem (by simp)]
  split
  · rename_i hquery
    rw [hquery]
    rfl
  · simp [cut]

theorem takeWhile_eq_iff {s : List Char} : s.takeWhile (· != '#') = s ↔ '#' ∉ s := by
  rw [List.takeWhile_eq_self_iff]
  constructor
  · exact fun h hmem => by simpa using h '#' hmem
  · exact fun h c hc => bne_iff_ne.2 fun he => h (he ▸ hc)

namespace HttpUrl

/-- The path of the URL that is given to httpx, before it is read. -/
def fullPath (base : HttpUrl) (path : List Char) : List Char :=
  base.root ++ if path = [] then [] else '/' :: path.dropWhile (· == '/')

theorem fullPath_head (base : HttpUrl) (path : List Char) : ∀ c ∈ (base.fullPath path).head?,
    c = '/' := by
  intro c hc
  unfold fullPath at hc
  rcases base.root_head with hroot | hroot
  · rw [hroot, List.nil_append] at hc
    split at hc
    · cases hc
    · cases hc
      rfl
  · rw [List.head?_append, hroot] at hc
    cases hc
    rfl

/-- What httpx reads. -/
theorem parse_upstreamUrl (base : HttpUrl) (path query : List Char) :
    Uri.parse (upstreamUrl base.text (.ofList path) (.ofList query)).toList =
      ⟨some base.scheme, some base.authority,
      pathPart (base.fullPath path) query,
        (cut '?' (cut '#' (base.fullPath path ++ if query = [] then [] else '?' :: query)).1).2,
      (cut '#' (base.fullPath path ++ if query = [] then [] else '?' :: query)).2⟩ := by
  have happended : base.root ++ appended path query = base.fullPath path ++
      if query = [] then [] else '?' :: query := by
    rw [appended, fullPath, List.append_assoc]
  rw [upstreamUrl_text, happended, origin]
  refine Uri.parse_append base.scheme_ok base.authority_ok.2 fun c hc => ?_
  have hpath : (cut '?' (cut '#' (base.fullPath path ++ if query = [] then [] else '?' :: query)).1).1 =
      (base.fullPath path).takeWhile fun c => c != '?' && c != '#' := pathPart_eq _ _
  rw [hpath] at hc
  refine base.fullPath_head path c ?_
  cases hfull : base.fullPath path with
  | nil =>
    rw [hfull] at hc
    cases hc
  | cons d l =>
    rw [hfull, List.takeWhile_cons] at hc
    split at hc
    · exact hc
    · cases hc

end HttpUrl

theorem pathPart_root (base : HttpUrl) (query : List Char) :
    removeDotSegments (pathPart (base.fullPath []) query) = base.root := by
  rw [HttpUrl.fullPath, if_pos rfl, List.append_nil, pathPart_of_plain fun c hc => HttpUrl.mem_root hc,
    removeDotSegments_of_none base.root_normal]

theorem plainPath_nil : PlainPath [] :=
  ⟨by simp, fun a b _ _ hin => by simp at hin, by decide, by simp⟩

theorem Confined.octets_nil {query : List Char}
    (h : Confined base octets rawQuery
      (Uri.parse (upstreamUrl base.text (.ofList []) (.ofList query)).toList)) : octets = [] := by
  obtain ⟨rest, hsent, hrest⟩ := h.under
  rw [base.parse_upstreamUrl, pathPart_root] at hsent
  rcases hrest with ⟨-, hoctets⟩ | ⟨tail, rfl, -⟩
  · exact hoctets
  · simp at hsent

theorem head_ne_of_dropWhile {c : Char} (h : path.dropWhile (· == c) = path) : path.head? ≠ some c := by
  cases path with
  | nil => exact fun hhead => by cases hhead
  | cons d t =>
    intro hhead
    cases hhead
    rw [List.dropWhile_cons_of_pos (by simp)] at h
    have hle := (List.dropWhile_sublist (l := t) fun d => d == c).length_le
    rw [h, List.length_cons] at hle
    omega

/-- The path that is sent is not longer than what the base URL and the path parameter make, with the
same length only if the parameter is plain. -/
theorem Confined.plain (hasgi : asgi.Conforms) {query : List Char}
    (hpath : asgi.upstreamPath octets = path)
    (h : Confined base octets rawQuery
      (Uri.parse (upstreamUrl base.text (.ofList path) (.ofList query)).toList)) :
    PlainPath path ∧ octets = utf8Text path := by
  have hnil : (asgi.upstreamPath []).length = 0 := congrArg List.length (hasgi.text [] List.not_mem_nil)
  by_cases hempty : path = []
  · subst hempty
    exact ⟨plainPath_nil, h.octets_nil⟩
  obtain ⟨rest, hsent, hrest⟩ := h.under
  obtain ⟨tail, rfl, hdecode⟩ :=
    hrest.resolve_left fun h => hempty (by rw [← hpath, h.2]; exact hasgi.text [] List.not_mem_nil)
  rw [base.parse_upstreamUrl] at hsent
  dsimp only at hsent
  have hfull : base.fullPath path = base.root ++ '/' :: path.dropWhile (· == '/') := by
    rw [HttpUrl.fullPath, if_neg hempty]
  -- each step makes the text shorter, or leaves it as it is
  have hdots := length_removeDotSegments_le (pathPart (base.fullPath path) query)
  have hdecoded : path.length ≤ tail.length := by
    rw [← hpath, ← hdecode]
    exact @size_percentDecode_le (fun octets => (asgi.upstreamPath octets).length) hnil hasgi.octet
      hasgi.char tail
  have hpart : (pathPart (base.fullPath path) query).length ≤ (base.fullPath path).length := by
    rw [pathPart_eq]
    exact (List.takeWhile_sublist _).length_le
  have hslash : (path.dropWhile (· == '/')).length ≤ path.length := (List.dropWhile_sublist _).length_le
  have hlength : (base.fullPath path).length = base.root.length +
      (path.dropWhile (· == '/')).length + 1 := by
    rw [hfull, List.length_append, List.length_cons]
    omega
  have hsentLength : (removeDotSegments (pathPart (base.fullPath path) query)).length =
      base.root.length + tail.length + 1 := by
    rw [hsent, List.length_append, List.length_cons]
    omega
  -- so nothing has been cut off
  have hstripped : path.dropWhile (· == '/') = path :=
    (List.dropWhile_sublist _).eq_of_length (by omega)
  have hwhole : pathPart (base.fullPath path) query = base.fullPath path := by
    have htake := pathPart_eq (base.fullPath path) query
    rw [htake] at hpart hdots hsentLength ⊢
    exact (List.takeWhile_sublist _).eq_of_length (by omega)
  have hnodots : (pathSegments (base.fullPath path)).countP isDotSegment = 0 := by
    rw [hwhole] at hdots hsentLength
    omega
  rw [List.countP_eq_zero] at hnodots
  have htail : tail = path := by
    rw [hwhole, removeDotSegments_of_none fun s hs => Bool.not_eq_true _ ▸ hnodots s hs, hfull,
      hstripped] at hsent
    have hcons := List.append_cancel_left hsent
    injection hcons with _ he
    exact he.symm
  have hescapes : NoEscape path := by
    rw [← htail]
    refine @noEscape_of_size (fun octets => (asgi.upstreamPath octets).length) hnil hasgi.octet
      hasgi.char tail ?_
    rw [hdecode, hpath, htail]
  refine ⟨⟨fun c hc => ?_, hescapes, fun s hs => ?_, head_ne_of_dropWhile hstripped⟩,
    by rw [← hdecode, htail, hescapes.percentDecode_eq]⟩
  · have hmem : c ∈ pathPart (base.fullPath path) query := by
      rw [hwhole, hfull, hstripped]
      exact List.mem_append_right _ (List.mem_cons_of_mem _ hc)
    rw [pathPart_eq] at hmem
    have hpass := List.mem_takeWhile_imp hmem
    simp only [Bool.and_eq_true, bne_iff_ne] at hpass
    simp [hpass.1, hpass.2]
  · refine Bool.not_eq_true _ ▸ hnodots s ?_
    rw [hfull, hstripped, HttpUrl.pathSegments_append]
    exact List.mem_append_right _ hs

theorem PlainPath.stripped (h : PlainPath path) : path.dropWhile (· == '/') = path := by
  cases path with
  | nil => rfl
  | cons c t => exact List.dropWhile_cons_of_neg fun hc => h.slash (by rw [beq_iff_eq.1 hc]; rfl)

theorem PlainPath.fullPath (h : PlainPath path) : ∀ c ∈ base.fullPath path, c ∉ ['?', '#'] := by
  intro c hc
  unfold HttpUrl.fullPath at hc
  rcases List.mem_append.1 hc with hc | hc
  · exact HttpUrl.mem_root hc
  · split at hc
    · exact absurd hc List.not_mem_nil
    · rw [h.stripped] at hc
      rcases List.mem_cons.1 hc with rfl | hc
      · decide
      · exact h.delimiters c hc

theorem PlainPath.confined (h : PlainPath path) (hquery : '#' ∉ rawQuery) :
    Confined base (utf8Text path) rawQuery
    (Uri.parse (upstreamUrl base.text (.ofList path) (.ofList rawQuery)).toList) := by
  have hnormal : ∀ s ∈ pathSegments (base.fullPath path), isDotSegment s = false := by
    intro s hs
    unfold HttpUrl.fullPath at hs
    split at hs
    · rw [List.append_nil] at hs
      exact base.root_normal s hs
    · rw [h.stripped, HttpUrl.pathSegments_append] at hs
      rcases List.mem_append.1 hs with hs | hs
      · exact base.root_normal s hs
      · exact h.dots s hs
  rw [base.parse_upstreamUrl]
  refine ⟨⟨rfl, rfl⟩, ?_, ?_⟩
  · dsimp only
    rw [pathPart_of_plain h.fullPath, removeDotSegments_of_none hnormal, HttpUrl.fullPath, h.stripped]
    split
    · rename_i hempty
      exact ⟨[], rfl, .inl ⟨rfl, by rw [hempty]; rfl⟩⟩
    · exact ⟨_, rfl, .inr ⟨path, rfl, h.escapes.percentDecode_eq⟩⟩
  · dsimp only
    rw [query_of_plain h.fullPath, takeWhile_eq_iff.2 hquery]

/-- The octets are the UTF-8 of a plain path without a line break, and the framework leaves the
query as it is. -/
structure Asgi.Plain (asgi : Asgi) (before : List Char) (octets : List UInt8)
    (rawQuery path : List Char) : Prop where
  octets : octets = utf8Text path
  line : '\n' ∉ path
  plain : PlainPath path
  query : asgi.urlQuery before path rawQuery = rawQuery
  fragment : '#' ∉ rawQuery

theorem confined_iff (hasgi : asgi.Conforms) (base : HttpUrl) (before : List Char)
    (octets : List UInt8) (rawQuery : List Char) :
    Confined base octets rawQuery (Uri.parse (upstreamUrl base.text (.ofList (asgi.upstreamPath octets))
      (.ofList (asgi.urlQuery before (asgi.upstreamPath octets) rawQuery))).toList) ↔
        ∃ path, asgi.Plain before octets rawQuery path := by
  constructor
  · intro h
    obtain ⟨hplain, hoctets⟩ := h.plain hasgi rfl
    have hquery := h.query
    rw [base.parse_upstreamUrl] at hquery
    dsimp only at hquery
    rw [query_of_plain hplain.fullPath, takeWhile_eq_iff.2 (hasgi.fragment _ _ _)] at hquery
    exact ⟨_, hoctets, hasgi.line _, hplain, hquery, hquery ▸ hasgi.fragment _ _ _⟩
  · rintro ⟨path, rfl, hline, hplain, hquery, hfragment⟩
    rw [hasgi.text path hline, hquery]
    exact hplain.confined hfragment

theorem Asgi.Conforms.plain_iff (hasgi : asgi.Conforms) {before : List Char}
    (hordinary : Ordinary before rawQuery) :
    asgi.Plain before octets rawQuery path ↔ octets = utf8Text path ∧ '\n' ∉ path ∧ PlainPath path ∧
        '#' ∉ rawQuery := by
  constructor
  · exact fun h => ⟨h.octets, h.line, h.plain, h.fragment⟩
  · rintro ⟨hoctets, hline, hplain, hfragment⟩
    refine ⟨hoctets, hline, hplain, ?_, hfragment⟩
    rw [hasgi.query before path rawQuery hordinary hplain.delimiters, takeWhile_eq_iff.2 hfragment]

/-! ### The request that is sent -/

/-- URL confinement: one request is sent, and its URL stays under the base URL, goes on as the
client's path and has the client's query exactly if the octets of that path are the UTF-8 of a plain
path without a line break, and the query is left as it is; an ordinary query is if it has no `#`. -/
theorem upstream_confined_iff (asgi : Asgi) (hasgi : asgi.Conforms) (cfg : GatewayConfig)
    (base : HttpUrl) (request : HttpRequest) (rawPath rawQuery : List Char)
    (s : Session platformTables.backend) :
    (forward cfg base.text (incomingRequest (request.sent asgi rawPath rawQuery))).Ends
      (fun _ s' => ∃ r, s'.world.outside.sent = s.world.outside.sent ++ [r] ∧
        (Confined base (percentDecode rawPath) rawQuery (Uri.parse r.url.toList) ↔
          ∃ path, asgi.Plain request.before (percentDecode rawPath) rawQuery path) ∧
        (Ordinary request.before rawQuery →
          (Confined base (percentDecode rawPath) rawQuery (Uri.parse r.url.toList) ↔
            ∃ path, percentDecode rawPath = utf8Text path ∧ '\n' ∉ path ∧ PlainPath path ∧
              '#' ∉ rawQuery)))
      (fun _ _ => False) s := by
  have hiff := confined_iff hasgi base request.before (percentDecode rawPath) rawQuery
  have hconfined := And.intro hiff fun hordinary : Ordinary request.before rawQuery =>
    hiff.trans (exists_congr fun path => hasgi.plain_iff hordinary)
  unfold forward
  let Sent (s' : Session platformTables.backend) :=
    ∃ r, s'.world.outside.sent = s.world.outside.sent ++ [r] ∧
    (Confined base (percentDecode rawPath) rawQuery (Uri.parse r.url.toList) ↔
      ∃ path, asgi.Plain request.before (percentDecode rawPath) rawQuery path) ∧
    (Ordinary request.before rawQuery →
      (Confined base (percentDecode rawPath) rawQuery (Uri.parse r.url.toList) ↔
      ∃ path, percentDecode rawPath = utf8Text path ∧ '\n' ∉ path ∧ PlainPath path ∧ '#' ∉ rawQuery))
  refine Prog.Ends.bind
    (Q := fun _ (s₁ : Session platformTables.backend) => s₁.world.outside.sent =
      s.world.outside.sent) (Prog.ends_ask rfl)
    fun start s₁ hs₁ => ?_
  refine Prog.Ends.bind (Q := fun _ s₂ => Sent s₂)
    (Prog.ends_ask ⟨_, congrArg (· ++ _) hs₁, hconfined⟩) fun upstream s₂ hs₂ => ?_
  cases upstream with
  | error e => exact hs₂
  | ok upstream =>
    exact Prog.Ends.bind (Q := fun _ s₃ => Sent s₃) (Prog.ends_ask hs₂) fun stop s₃ hs₃ => hs₃

/-- A server that replaces what is not UTF-8, and a URL that is put together and taken apart again. -/
def sampleAsgi : Asgi where
  upstreamPath octets := (utf8Replace octets).takeWhile (· != '\n')
  urlQuery before path rawQuery :=
    ((cut '?' (cut '#' (before ++ path ++ if rawQuery = [] then [] else '?' :: rawQuery)).1).2).getD []

theorem sampleAsgi_conforms : sampleAsgi.Conforms where
  text path h := by
    show (utf8Replace (utf8Text path)).takeWhile (· != '\n') = path
    rw [utf8Replace_utf8Text]
    exact List.takeWhile_eq_self_iff.2 fun c hc => bne_iff_ne.2 fun he => h (he ▸ hc)
  line octets h := by simpa using List.mem_takeWhile_imp h
  octet o octets := by
    obtain ⟨c, more, rest, rfl, hmore, hcons⟩ := utf8Replace_cons o octets
    have hreplaced : ∀ c ∈ List.replicate more.length '\uFFFD', (c != '\n') = true := by
      intro c hc
      rw [List.eq_of_mem_replicate hc]
      decide
    show ((utf8Replace _).takeWhile _).length ≤ ((utf8Replace _).takeWhile _).length + 1
    rw [hcons, utf8Replace_tails hmore, List.takeWhile_append_of_pos hreplaced, List.length_append,
      List.takeWhile_cons]
    split
    · rw [List.length_cons]
      omega
    · exact Nat.zero_le _
  char c octets := by
    show ((utf8Replace _).takeWhile _).length ≤ ((utf8Replace _).takeWhile _).length + 1
    rw [utf8Replace_char, List.takeWhile_cons]
    split
    · exact Nat.le_refl _
    · exact Nat.zero_le _
  query before path rawQuery h hpath := by
    refine query_of_plain (fun c hc => ?_) rawQuery
    rcases List.mem_append.1 hc with hc | hc
    · exact fun hmem => h.1 c hc (List.mem_append_left ['[', ']'] hmem)
    · exact hpath c hc
  fragment before path rawQuery h := not_mem_cut '#' _ (mem_of_mem_cut h)

/-- `https://weather.test/public`. -/
def samplePublic : HttpUrl where
  scheme := "https".toList
  authority := "weather.test".toList
  path := "/public".toList
  scheme_ok := ⟨by decide, forall_mem_of_all (by decide +kernel)⟩
  authority_ok := ⟨by decide, forall_mem_of_all (by decide +kernel)⟩
  path_ok := ⟨by decide, forall_mem_of_all (by decide +kernel)⟩
  normal := by decide +kernel

/-- A path and a query that are kept. -/
theorem upstream_confined_iff_now : ∃ r : UpstreamRequest,
    ((forward sampleGatewayConfig samplePublic.text
      (incomingRequest (sampleRequest.sent sampleAsgi "now".toList "x=1".toList))).eval
      sampleGatewaySession).2.world.outside.sent = [r] ∧
    Confined samplePublic (percentDecode "now".toList) "x=1".toList (Uri.parse r.url.toList) := by
  obtain ⟨a, s', heval, r, hsent, -, hiff⟩ :=
    (upstream_confined_iff sampleAsgi sampleAsgi_conforms sampleGatewayConfig samplePublic
    sampleRequest "now".toList "x=1".toList sampleGatewaySession).exists_ok
  have hordinary : Ordinary sampleRequest.before "x=1".toList :=
    ⟨forall_mem_of_all (by decide +kernel), forall_mem_of_all (by decide +kernel)⟩
  have hplain : PlainPath "now".toList :=
    ⟨forall_mem_of_all (by decide +kernel), noEscape_of_not_mem (by decide),
      by decide +kernel, by decide⟩
  refine ⟨r, by rw [heval, hsent]; rfl, (hiff hordinary).2
    ⟨_, hplain.escapes.percentDecode_eq, by decide, hplain, by decide⟩⟩

/-- `/gw/weather/v1/%2e%2e/admin` asks for `https://weather.test/public/../admin`. -/
theorem upstream_not_confined : ¬ ∀ (asgi : Asgi) (_ : asgi.Conforms) (cfg : GatewayConfig)
    (base : HttpUrl) (request : HttpRequest) (rawPath rawQuery : List Char)
    (s : Session platformTables.backend),
    (forward cfg base.text (incomingRequest (request.sent asgi rawPath rawQuery))).Ends
      (fun _ s' => ∃ r, s'.world.outside.sent = s.world.outside.sent ++ [r] ∧
        Confined base (percentDecode rawPath) rawQuery (Uri.parse r.url.toList))
      (fun _ _ => False) s := by
  intro h
  have hurl : (((forward sampleGatewayConfig samplePublic.text
      (incomingRequest (sampleRequest.sent sampleAsgi
      "%2e%2e/admin".toList []))).eval sampleGatewaySession).2.world.outside.sent.map (·.url)) =
        ["https://weather.test/public/../admin"] := by decide +kernel
  obtain ⟨a, s', heval, r, hsent, hconfined⟩ :=
    (h sampleAsgi sampleAsgi_conforms sampleGatewayConfig samplePublic sampleRequest
      "%2e%2e/admin".toList []
      sampleGatewaySession).exists_ok
  rw [heval] at hurl
  dsimp only at hurl
  rw [hsent, show sampleGatewaySession.world.outside.sent = [] from rfl, List.nil_append,
    List.map_singleton] at hurl
  injection hurl with hurl
  obtain ⟨rest, hpath, -⟩ := hconfined.under
  rw [hurl, show removeDotSegments (Uri.parse "https://weather.test/public/../admin".toList).path =
    "/admin".toList by decide +kernel,
    show samplePublic.root = "/public".toList by decide +kernel] at hpath
  have hhead := congrArg (List.take 2) hpath
  rw [List.take_append_of_le_length (by decide)] at hhead
  exact absurd hhead (by decide +kernel)

end TrafficPlatform
