import TrafficPlatform.Gateway.Headers
import TrafficPlatform.Gateway.Logging
import Mathlib.Data.List.Nodup

/-!
# The response that is relayed

httpx undoes the encoding of an upstream's body and joins the values of a repeated header name;
`_forward` copies both into a response that still names the encoding. `response_relayed_iff` says
which responses come through.
-/

namespace TrafficPlatform
open Kit Gateway GatewayService

/-! ### Joined values -/

namespace HeaderLines

/-- The values of a name. -/
def values (lines : HeaderLines) (name : String) : List String :=
  (lines.filter fun h => asciiLower h.1 == name).map (·.2)

/-- The values, with commas between them. -/
def join : List String → Option String
  | [] => none
  | v :: vs => some (vs.foldl (fun v v' => v ++ ", " ++ v') v)

variable {lines lines' : HeaderLines} {name : String}

theorem values_append (lines lines' : HeaderLines) (name : String) :
    (lines ++ lines').values name = lines.values name ++ lines'.values name := by
  simp [values]

theorem values_cons (h : String × String) (hs : HeaderLines) (name : String) :
    values (h :: hs) name = if asciiLower h.1 = name then h.2 ::
        hs.values name else hs.values name := by
  by_cases hn : asciiLower h.1 = name <;> simp [values, hn]

theorem lower_of_mem_items {h : String × String} (hmem : h ∈ lines.items) : asciiLower h.1 = h.1 := by
  induction lines with
  | nil => exact absurd hmem List.not_mem_nil
  | cons h₀ hs ih =>
    rcases List.mem_cons.1 hmem with rfl | hmem
    · exact asciiLower_asciiLower h₀.1
    · exact ih (List.mem_filter.1 hmem).1

/-- A dictionary has one value for each name. -/
theorem values_items (lines : HeaderLines) (name : String) :
    lines.items.values name = (join (lines.values name)).toList := by
  induction lines with
  | nil => rfl
  | cons h hs ih =>
    have hrest : values ((items hs).filter fun h' => h'.1 != asciiLower h.1) name =
        if asciiLower h.1 = name then [] else (items hs).values name := by
      unfold values
      rw [List.filter_filter]
      split
      · rename_i hn
        rw [List.filter_eq_nil_iff.2, List.map_nil]
        intro h' hh'
        rw [lower_of_mem_items hh', ← hn]
        simp
      · rename_i hn
        congr 1
        refine List.filter_congr fun h' hh' => ?_
        rw [lower_of_mem_items hh']
        by_cases he : h'.1 = name
        · simp [he, Ne.symm hn]
        · simp [he]
    rw [items, values_cons, values_cons, hrest, asciiLower_asciiLower]
    split
    · rename_i hn
      rw [← hn]
      rfl
    · exact ih

theorem contentEncoding_eq (lines : HeaderLines) :
    lines.contentEncoding = join (lines.values "content-encoding") := by
  have hget : lines.items.get "content-encoding" = (lines.items.values "content-encoding").head? := by
    rw [get, ← List.head?_filter, ← List.head?_map, values]
    refine congrArg (fun l : HeaderLines => (List.map (·.2) l).head?) (List.filter_congr fun h hh => ?_)
    rw [lower_of_mem_items hh]
  rw [contentEncoding, hget, values_items]
  cases join (lines.values "content-encoding") <;> rfl

theorem values_passedOn (lines : HeaderLines) (name : String) :
    (passedOn lines).values name = if name ∈ hopByHop then [] else lines.values name := by
  unfold passedOn values
  rw [List.filter_filter]
  split
  · rename_i hn
    rw [List.filter_eq_nil_iff.2, List.map_nil]
    intro h _
    simp only [Bool.and_eq_true, beq_iff_eq, Bool.not_eq_true', not_and]
    rintro rfl
    simpa using hn
  · rename_i hn
    congr 1
    refine List.filter_congr fun h _ => ?_
    by_cases he : asciiLower h.1 = name
    · simp [he, hn]
    · simp [he]

theorem values_asgi (lines : HeaderLines) (name : String) :
    lines.asgi.values name = lines.values name := by
  unfold asgi values
  rw [List.filter_map, List.map_map]
  refine congrArg₂ _ rfl (List.filter_congr fun h _ => ?_)
  simp [asciiLower_asciiLower]

theorem length_values_le_one (h : (lines.map fun h => asciiLower h.1).Nodup) (name : String) :
    (lines.values name).length ≤ 1 := by
  induction lines with
  | nil => exact Nat.zero_le _
  | cons h₀ hs ih =>
    obtain ⟨hno, hnodup⟩ := List.nodup_cons.1 h
    rw [values_cons]
    split
    · rename_i hn
      have hnil : values hs name = [] := by
        unfold values
        rw [List.filter_eq_nil_iff.2, List.map_nil]
        exact fun h' hh' he => hno (List.mem_map.2 ⟨h', hh', (beq_iff_eq.1 he).trans hn.symm⟩)
      rw [hnil]
      exact Nat.le_refl _
    · exact ih hnodup

/-- The commas of a value. -/
def commas (v : String) : Nat := v.toList.count ','

theorem commas_join (v v' : String) : commas (v ++ ", " ++ v') = commas v + 1 + commas v' := by
  simp only [commas, String.toList_append, List.count_append]
  rfl

/-- The joined value has more commas than each of the values. -/
theorem commas_lt_join {v₀ v v' : String} {vs : List String} (h : v ∈ v₀ :: v' :: vs) :
    commas v < commas ((v' :: vs).foldl (fun v v' => v ++ ", " ++ v') v₀) := by
  have hfold : ∀ (vs : List String) (v₀ : String),
      commas v₀ ≤ commas (vs.foldl (fun v v' => v ++ ", " ++ v') v₀) ∧
      ∀ v ∈ vs, commas v < commas (vs.foldl (fun v v' => v ++ ", " ++ v') v₀) := by
    intro vs
    induction vs with
    | nil => exact fun v₀ => ⟨Nat.le_refl _, fun v hv => absurd hv List.not_mem_nil⟩
    | cons v₁ vs ih =>
      intro v₀
      obtain ⟨hle, hlt⟩ := ih (v₀ ++ ", " ++ v₁)
      rw [commas_join] at hle
      refine ⟨by rw [List.foldl_cons]; omega, fun v hv => ?_⟩
      rw [List.foldl_cons]
      rcases List.mem_cons.1 hv with rfl | hv
      · omega
      · exact hlt v hv
  rcases List.mem_cons.1 h with rfl | h
  · have hle := (hfold vs (v ++ ", " ++ v')).1
    rw [commas_join] at hle
    rw [List.foldl_cons]
    omega
  · exact (hfold (v' :: vs) v₀).2 v h

/-- Repeated values do not fit into the joined one and one more line, even if what is joined are
other texts with as many commas. -/
theorem nodup_of_subperm {read own : HeaderLines} (hown : ∀ name, (own.values name).length ≤ 1)
    (hread : read.map (fun h => (h.1, commas h.2)) = lines.map fun h => (h.1, commas h.2))
    (h : (passedOn lines.asgi).Subperm (passedOn read.items ++ own)) :
        ((passedOn lines).map fun h => asciiLower h.1).Nodup := by
  refine List.nodup_iff_count_le_one.2 fun name => ?_
  have hcount : ((passedOn lines).map fun h => asciiLower h.1).count name =
      ((passedOn lines).values name).length := by
    rw [values, List.length_map, List.count_eq_countP, List.countP_map, List.countP_eq_length_filter]
    rfl
  have hvalues : ((passedOn lines.asgi).values name).Subperm
      ((passedOn read.items).values name ++ own.values name) := by
    rw [← values_append]
    obtain ⟨l, hp, hs⟩ := h
    exact ⟨values l name, (hp.filter _).map _, (hs.filter _).map _⟩
  have hcommas : (read.values name).map commas = (lines.values name).map commas := by
    have hfilter :=
      congrArg (fun l : List (String × Nat) => (l.filter fun h => asciiLower h.1 == name).map (·.2))
        hread
    simp only [List.filter_map, List.map_map] at hfilter
    simp only [values, List.map_map]
    exact hfilter
  rw [hcount]
  rw [values_passedOn, values_passedOn] at hvalues
  rw [values_passedOn]
  split
  · exact Nat.zero_le _
  rename_i hpass
  rw [if_neg hpass, if_neg hpass, values_asgi, values_items] at hvalues
  match hv : lines.values name, hr : read.values name with
  | [], _ => exact Nat.zero_le _
  | [v], _ => exact Nat.le_refl _
  | v₀ :: v' :: vs, [] => simp [hv, hr] at hcommas
  | v₀ :: v' :: vs, [r] => simp [hv, hr] at hcommas
  | v₀ :: v' :: vs, r₀ :: r' :: rs =>
    rw [hv, hr] at hvalues
    rw [hv, hr] at hcommas
    have hnot : ∀ v ∈ v₀ :: v' :: vs, v ≠ (r' :: rs).foldl (fun v v' => v ++ ", " ++ v') r₀ := by
      rintro v hmem rfl
      obtain ⟨r, hr, he⟩ := List.mem_map.1 (hcommas ▸ List.mem_map_of_mem (f := commas) hmem)
      exact absurd (commas_lt_join hr) (by omega)
    have hrest : (v₀ :: v' :: vs).Subperm (own.values name) := by
      refine List.subperm_ext_iff.2 fun v hmem => ?_
      have hle := List.subperm_ext_iff.1 hvalues v hmem
      rwa [join, Option.toList_some, List.singleton_append,
        List.count_cons_of_ne (Ne.symm (hnot v hmem))] at hle
    have hlength := hrest.length_le.trans (hown name)
    simp at hlength

theorem items_of_nodup (h : (lines.map fun h => asciiLower h.1).Nodup) : lines.items = lines.asgi := by
  induction lines with
  | nil => rfl
  | cons h₀ hs ih =>
    obtain ⟨hno, hnodup⟩ := List.nodup_cons.1 h
    have hothers : hs.filter (fun h' => asciiLower h'.1 == asciiLower h₀.1) = [] :=
      List.filter_eq_nil_iff.2 fun h' hh' he => hno (List.mem_map.2 ⟨h', hh', beq_iff_eq.1 he⟩)
    have hkept : (items hs).filter (fun h' => h'.1 != asciiLower h₀.1) = items hs := by
      refine List.filter_eq_self.2 fun h' hh' => bne_iff_ne.2 fun he => hno ?_
      rw [ih hnodup] at hh'
      obtain ⟨h₁, hh₁, rfl⟩ := List.mem_map.1 hh'
      exact List.mem_map.2 ⟨h₁, hh₁, he⟩
    rw [items, hothers, hkept, ih hnodup]
    rfl

theorem passedOn_cons (h : String × String) (hs : HeaderLines) :
    passedOn (h :: hs) = if asciiLower h.1 ∈ hopByHop then passedOn hs else h :: passedOn hs := by
  by_cases hn : asciiLower h.1 ∈ hopByHop <;> simp [passedOn, hn]

theorem passedOn_items (lines : HeaderLines) : passedOn lines.items = items (passedOn lines) := by
  induction lines with
  | nil => rfl
  | cons h hs ih =>
    have hcomm : passedOn ((items hs).filter fun h' => h'.1 != asciiLower h.1) =
        (items (passedOn hs)).filter fun h' => h'.1 != asciiLower h.1 := by
      rw [← ih]
      unfold passedOn
      rw [List.filter_filter, List.filter_filter]
      exact List.filter_congr fun _ _ => Bool.and_comm _ _
    rw [items, passedOn_cons, passedOn_cons, asciiLower_asciiLower, hcomm]
    split
    · rename_i hn
      refine List.filter_eq_self.2 fun h' hh' => bne_iff_ne.2 fun he => ?_
      rw [← ih] at hh'
      have hpass := (List.mem_filter.1 hh').2
      rw [he, asciiLower_asciiLower] at hpass
      simp [hn] at hpass
    · rename_i hn
      have hothers : values hs (asciiLower h.1) = (passedOn hs).values (asciiLower h.1) := by
        rw [values_passedOn, if_neg hn]
      rw [items]
      unfold values at hothers
      rw [hothers]

theorem passedOn_asgi (lines : HeaderLines) : passedOn lines.asgi = asgi (passedOn lines) := by
  unfold passedOn asgi
  rw [List.filter_map]
  refine congrArg _ (List.filter_congr fun h _ => ?_)
  simp [asciiLower_asciiLower]

theorem encoded_append (lines lines' : HeaderLines) : (lines ++ lines').encoded = lines.encoded ++
    lines'.encoded :=
  List.map_append

end HeaderLines

/-! ### Octets -/

namespace WireLines

/-- The lines with an octet as the character of its number. -/
def latin1 (lines : WireLines) : HeaderLines := lines.map fun h => (h.1, .ofList (latin1Chars h.2))

/-- The lines that do not end at the gateway, with their names in lower case. -/
def passed (lines : WireLines) : WireLines :=
  (lines.map fun h => (asciiLower h.1, h.2)).filter fun h => !hopByHop.contains h.1

variable {lines : WireLines} {h : String × Bytes}

theorem latin1_passed (lines : WireLines) : lines.passed.latin1 = passedOn lines.latin1.asgi := by
  unfold passed latin1 passedOn HeaderLines.asgi
  simp only [List.filter_map, List.map_map]
  refine congrArg _ (List.filter_congr fun h _ => ?_)
  simp [asciiLower_asciiLower]

theorem decode_passed (lines : WireLines) :
    lines.passed.map (fun h => (h.1, lines.decode h.2)) = passedOn lines.decoded.asgi := by
  unfold passed decoded passedOn HeaderLines.asgi
  simp only [List.filter_map, List.map_map]
  refine congrArg _ (List.filter_congr fun h _ => ?_)
  simp [asciiLower_asciiLower]

theorem exists_of_mem_passed (hmem : h ∈ lines.passed) : ∃ h' ∈ lines, h = (asciiLower h'.1, h'.2) := by
  obtain ⟨h', hh', rfl⟩ := List.mem_map.1 (List.mem_filter.1 hmem).1
  exact ⟨h', hh', rfl⟩

theorem latin1_encoded {lines : HeaderLines} (h : ∀ h ∈ lines, isLatin1 h.2 = true) :
    lines.encoded.latin1 = lines := by
  unfold HeaderLines.encoded latin1
  rw [List.map_map]
  refine (List.map_congr_left fun l hl => ?_).trans (List.map_id _)
  show (l.1, String.ofList (latin1Chars (latin1Octets l.2.toList))) = l
  rw [latin1Chars_latin1Octets fun c hc => of_decide_eq_true (List.all_eq_true.1 (h l hl) c hc),
    String.ofList_toList]

theorem commas_decoded (lines : WireLines) :
    lines.decoded.map (fun h => (h.1, HeaderLines.commas h.2)) =
    lines.latin1.map fun h => (h.1, HeaderLines.commas h.2) := by
  unfold decoded latin1
  rw [List.map_map, List.map_map]
  refine List.map_congr_left fun h hmem => Prod.ext rfl ?_
  show (String.ofList _).toList.count ',' = (String.ofList _).toList.count ','
  rw [String.toList_ofList, String.toList_ofList]
  split
  · rename_i hall
    obtain ⟨cs, hcs⟩ := Option.isSome_iff_exists.1 (List.all_eq_true.1 hall h hmem)
    rw [hcs, Option.getD_some, ← count_utf8Decode hcs,
      ← count_latin1Octets fun c hc => latin1Chars_lt hc, latin1Octets_latin1Chars]
  · rfl

theorem encode_decode_iff (hmem : h ∈ lines) : encodeLatin1 (lines.decode h.2) = h.2 ↔
    (∃ h' ∈ lines, utf8Decode h'.2 = none) ∨ ∀ o ∈ h.2, o.toNat < 0x80 := by
  unfold encodeLatin1 decode
  rw [String.toList_ofList]
  split
  · rename_i hall
    obtain ⟨cs, hcs⟩ := Option.isSome_iff_exists.1 (List.all_eq_true.1 hall h hmem)
    rw [hcs, Option.getD_some, latin1Octets_eq_iff hcs, or_iff_right]
    rintro ⟨h', hh', hnone⟩
    have hsome := List.all_eq_true.1 hall h' hh'
    rw [hnone] at hsome
    cases hsome
  · rename_i hall
    refine iff_of_true (latin1Octets_latin1Chars _) (.inl ?_)
    simpa using hall

/-- The values that are passed on are ASCII, or some value is not UTF-8. -/
def Kept (lines : WireLines) : Prop :=
  (∃ h ∈ lines, utf8Decode h.2 = none) ∨ ∀ h ∈ lines.passed, ∀ o ∈ h.2, o.toNat < 0x80

theorem Kept.of_mem (hkept : lines.Kept) (hmem : h ∈ lines.passed) :
    (∃ h' ∈ lines, utf8Decode h'.2 = none) ∨ ∀ o ∈ h.2, o.toNat < 0x80 :=
      hkept.imp_right fun hall => hall h hmem

theorem Kept.decode_eq (hkept : lines.Kept) (hmem : h ∈ lines.passed) :
    lines.decode h.2 = .ofList (latin1Chars h.2) := by
  have hoctets := hkept.of_mem hmem
  unfold decode
  congr 1
  split
  · rename_i hall
    rcases hoctets with ⟨h', hh', hnone⟩ | hascii
    · have hsome := List.all_eq_true.1 hall h' hh'
      rw [hnone] at hsome
      cases hsome
    · rw [utf8Decode_ascii hascii, Option.getD_some]
  · rfl

theorem Kept.encode_decode (hkept : lines.Kept) (hmem : h ∈ lines.passed) :
    isLatin1 (lines.decode h.2) = true ∧ encodeLatin1 (lines.decode h.2) = h.2 := by
  rw [hkept.decode_eq hmem]
  unfold isLatin1 encodeLatin1
  rw [String.toList_ofList]
  exact ⟨List.all_eq_true.2 fun c hc => decide_eq_true (latin1Chars_lt hc), latin1Octets_latin1Chars _⟩

theorem Kept.values_decoded (hkept : lines.Kept) {name : String} (hpass : name ∉ hopByHop) :
    lines.decoded.values name = lines.latin1.values name := by
  unfold HeaderLines.values decoded latin1
  simp only [List.filter_map, List.map_map]
  refine List.map_congr_left fun h hh => ?_
  obtain ⟨hmem, hname⟩ := List.mem_filter.1 hh
  have hname : asciiLower h.1 = name := beq_iff_eq.1 hname
  refine hkept.decode_eq (h := (asciiLower h.1, h.2)) (List.mem_filter.2 ⟨List.mem_map_of_mem hmem, ?_⟩)
  rw [hname]
  simpa using hpass

theorem names_decoded (lines : WireLines) : ((passedOn lines.decoded).map fun h => asciiLower h.1) =
    lines.passed.map (·.1) := by
  have hmap := congrArg (List.map (·.1)) lines.decode_passed
  rw [HeaderLines.passedOn_asgi, List.map_map, HeaderLines.asgi, List.map_map] at hmap
  exact hmap.symm

theorem names_latin1 (lines : WireLines) : ((passedOn lines.latin1).map fun h => asciiLower h.1) =
    lines.passed.map (·.1) := by
  have hmap := congrArg (List.map (·.1)) lines.latin1_passed
  rw [HeaderLines.passedOn_asgi, latin1, List.map_map, HeaderLines.asgi, List.map_map] at hmap
  exact hmap.symm

theorem items_decoded (hdistinct : (lines.passed.map (·.1)).Nodup) :
    passedOn lines.decoded.items = lines.passed.map fun h => (h.1, lines.decode h.2) := by
  rw [HeaderLines.passedOn_items, HeaderLines.items_of_nodup (lines.names_decoded ▸ hdistinct),
    ← HeaderLines.passedOn_asgi,
    decode_passed]

end WireLines

/-! ### The response -/

/-- The value of the `Content-Encoding` header. -/
def HttpResponse.contentEncoding (r : HttpResponse) : Option String := r.headers.latin1.contentEncoding

/-- The response `resp` says what the upstream's response `up` says: the same status, a body that
its `Content-Encoding` decodes to the same payload, and every line that does not end at the gateway,
octet by octet. -/
structure HttpResponse.RelayedAs (cfg : GatewayConfig) (up resp : HttpResponse) : Prop where
  status : resp.statusCode = up.statusCode
  payload : cfg.decodeContent resp.contentEncoding resp.body =
    cfg.decodeContent up.contentEncoding up.body
  lines : up.headers.passed.Subperm resp.headers

/-- The payload, decoded once more, is the payload; no name that is passed on is repeated, and a
response can carry it; and the values are ASCII, or some value of the response is not UTF-8. -/
structure HttpResponse.Relayable (cfg : GatewayConfig) (up : HttpResponse)
    (payload : Bytes) : Prop where
  stable : cfg.decodeContent up.contentEncoding payload = some payload
  distinct : (up.headers.passed.map (·.1)).Nodup
  names : ∀ h ∈ up.headers.passed, isLatin1 h.1 = true
  octets : up.headers.Kept

variable {cfg : GatewayConfig} {outcome : GatewayOutcome} {up resp : HttpResponse} {payload : Bytes}

/-- The names of the lines that the route and the framework add. -/
def ownNames : List String :=
  ["x-ratelimit-limit", "x-ratelimit-remaining", "x-gateway-latency-ms", "content-length"]

theorem asciiLower_ownName {name : String} (h : name ∈ ownNames) : asciiLower name = name := by
  simp only [ownNames, List.mem_cons, List.not_mem_nil, or_false] at h
  rcases h with rfl | rfl | rfl | rfl <;> decide +kernel

/-- The lines that are added have each name once. -/
theorem values_own {own : HeaderLines} (hsub : (own.map (·.1)).Sublist ownNames) :
    (∀ name, (own.values name).length ≤ 1) ∧ own.values "content-encoding" = [] := by
  have hlower : own.map (fun h => asciiLower h.1) = own.map (·.1) :=
    List.map_congr_left fun h hh => asciiLower_ownName (hsub.subset (List.mem_map_of_mem hh))
  refine ⟨HeaderLines.length_values_le_one ?_, ?_⟩
  · rw [hlower]
    exact List.Nodup.sublist hsub (by decide)
  · unfold HeaderLines.values
    rw [List.filter_eq_nil_iff.2, List.map_nil]
    intro h hh he
    have hname : asciiLower h.1 ∈ own.map (·.1) :=
      hlower ▸ List.mem_map_of_mem (f := fun h => asciiLower h.1) hh
    rw [beq_iff_eq.1 he] at hname
    exact absurd (hsub.subset hname) (by decide)

/-- The response carries the outcome, with lines of its own after those of the upstream. -/
structure Renders (outcome : GatewayOutcome) (resp : HttpResponse) (own : HeaderLines) : Prop where
  statusCode : resp.statusCode = outcome.statusCode
  body : resp.body = outcome.response.content
  headers : resp.headers = (outcome.response.headers.asgi ++ own).encoded
  ascii : ∀ h ∈ own, isAscii h.2 = true
  names : (own.map (·.1)).Sublist ownNames

theorem renders_starletteResponse {rateLimit : HeaderLines}
    (hsub : (rateLimit.asgi.map (·.1)).Sublist ["x-ratelimit-limit", "x-ratelimit-remaining"])
    (hascii : ∀ h ∈ rateLimit.asgi, isAscii h.2 = true)
    (h : starletteResponse outcome.response.content outcome.statusCode
      (outcome.response.headers ++ rateLimit ++
        [("X-Gateway-Latency-Ms", latencyText outcome.latencyMs)]) = some resp) :
    ∃ own, Renders outcome resp own := by
  unfold starletteResponse at h
  dsimp only at h
  split at h
  · cases h
    have hlatency : asciiLower "X-Gateway-Latency-Ms" = "x-gateway-latency-ms" := by decide +kernel
    have hlines : (outcome.response.headers ++ rateLimit ++
        [("X-Gateway-Latency-Ms", latencyText outcome.latencyMs)]).map
          (fun h => (asciiLower h.1, h.2)) = outcome.response.headers.asgi ++
            (rateLimit.asgi ++ [("x-gateway-latency-ms", latencyText outcome.latencyMs)]) := by
      simp [HeaderLines.asgi, hlatency]
    have hlatencyAscii : ∀ h ∈ [("x-gateway-latency-ms", latencyText outcome.latencyMs)],
        isAscii h.2 = true :=
      List.forall_mem_singleton.2 (isAscii_latencyText _)
    rw [hlines]
    split
    · refine ⟨_, rfl, rfl, rfl, List.forall_mem_append.2 ⟨hascii, hlatencyAscii⟩, ?_⟩
      rw [List.map_append]
      exact hsub.append ((List.nil_sublist _).cons_cons _)
    · refine ⟨_, rfl, rfl, congrArg HeaderLines.encoded (List.append_assoc _ _ _), ?_, ?_⟩
      · exact List.forall_mem_append.2 ⟨List.forall_mem_append.2 ⟨hascii, hlatencyAscii⟩,
          List.forall_mem_singleton.2 (isAscii_nat _)⟩
      · rw [List.map_append, List.map_append, List.append_assoc]
        exact hsub.append (List.Sublist.refl _)
  · cases h

theorem renders_response (h : response outcome = some resp) : ∃ own, Renders outcome resp own := by
  unfold response at h
  cases hr : outcome.rateLimit with
  | none =>
    rw [hr] at h
    exact @renders_starletteResponse outcome resp [] (by decide) (List.forall_mem_nil _) h
  | some r =>
    rw [hr] at h
    refine renders_starletteResponse ?_ ?_ h
    · have hlimit : asciiLower "X-RateLimit-Limit" = "x-ratelimit-limit" := by decide +kernel
      have hremaining : asciiLower "X-RateLimit-Remaining" = "x-ratelimit-remaining" := by
        decide +kernel
      simp [HeaderLines.asgi, hlimit, hremaining]
    · exact List.forall_mem_cons.2 ⟨isAscii_int _, List.forall_mem_singleton.2 (isAscii_int _)⟩

theorem contentEncoding_response {own : HeaderLines} (hkept : up.headers.Kept)
    (hno : own.values "content-encoding" = [])
    (hheaders : resp.headers.latin1 = passedOn up.headers.decoded.items ++ own) :
    resp.contentEncoding = up.contentEncoding ∧ up.headers.decoded.contentEncoding =
        up.contentEncoding := by
  have hpass : "content-encoding" ∉ hopByHop := by decide
  have hread : up.headers.decoded.contentEncoding = up.contentEncoding := by
    rw [HttpResponse.contentEncoding, HeaderLines.contentEncoding_eq,
      HeaderLines.contentEncoding_eq, hkept.values_decoded hpass]
  refine ⟨?_, hread⟩
  rw [← hread, HttpResponse.contentEncoding, hheaders, HeaderLines.contentEncoding_eq,
    HeaderLines.values_append, hno, List.append_nil, HeaderLines.values_passedOn, if_neg hpass,
    HeaderLines.values_items, HeaderLines.contentEncoding_eq]
  cases up.headers.decoded.values "content-encoding" <;> rfl

/-- The lines of the client are those of the upstream only if no name is repeated and the octets are
kept. -/
theorem kept_of_subperm {own : HeaderLines} (hascii : ∀ h ∈ own, isAscii h.2 = true)
    (hown : ∀ name, (own.values name).length ≤ 1)
    (hlatin1 : ∀ h ∈ passedOn up.headers.decoded.items, isLatin1 h.2 = true)
    (h : up.headers.passed.Subperm (passedOn up.headers.decoded.items ++ own).encoded) :
    (up.headers.passed.map (·.1)).Nodup ∧ up.headers.Kept := by
  have hall : ∀ h ∈ passedOn up.headers.decoded.items ++ own, isLatin1 h.2 = true :=
    List.forall_mem_append.2 ⟨hlatin1, fun l hl => isLatin1_of_isAscii (hascii l hl)⟩
  have hdistinct : (up.headers.passed.map (·.1)).Nodup := by
    obtain ⟨l, hp, hs⟩ := h
    have hlines :
        up.headers.passed.latin1.Subperm
            (passedOn up.headers.decoded.items ++ own).encoded.latin1 :=
      ⟨WireLines.latin1 l, hp.map _, hs.map _⟩
    rw [WireLines.latin1_passed, WireLines.latin1_encoded hall] at hlines
    rw [← WireLines.names_latin1]
    exact HeaderLines.nodup_of_subperm hown up.headers.commas_decoded hlines
  refine ⟨hdistinct, ?_⟩
  by_cases hutf8 : ∃ h ∈ up.headers, utf8Decode h.2 = none
  · exact .inl hutf8
  refine .inr fun l hl => ?_
  obtain ⟨s, hs, rfl⟩ := List.mem_map.1 (h.subset hl)
  rcases List.mem_append.1 hs with hs | hs
  · rw [WireLines.items_decoded hdistinct] at hs
    obtain ⟨l', hl', rfl⟩ := List.mem_map.1 hs
    have heq : l'.2 = encodeLatin1 (up.headers.decode l'.2) := by
      have hinj := List.inj_on_of_nodup_map hdistinct hl' hl rfl
      exact congrArg Prod.snd hinj
    obtain ⟨l₀, hl₀, rfl⟩ := WireLines.exists_of_mem_passed hl'
    rw [← heq]
    exact ((WireLines.encode_decode_iff hl₀).1 heq.symm).resolve_left hutf8
  · intro o ho
    obtain ⟨c, hc, rfl⟩ := List.mem_map.1 ho
    have hlt : c.toNat < 128 := of_decide_eq_true (List.all_eq_true.1 (hascii s hs) c hc)
    rw [UInt8.toNat_ofNat_of_lt' (hlt.trans (by decide))]
    exact hlt

/-- The response is relayed exactly if it is relayable. -/
theorem relayed_iff
    (hresponse : outcome.response = ⟨up.statusCode, passedOn up.headers.decoded.items, payload⟩)
    (hstatus : outcome.statusCode = up.statusCode)
    (hdecode : cfg.decodeContent up.headers.decoded.contentEncoding up.body = some payload) :
    (∃ resp, response outcome = some resp ∧ up.RelayedAs cfg resp) ↔ up.Relayable cfg payload := by
  have hasgi : HeaderLines.asgi (passedOn up.headers.decoded.items) =
      passedOn up.headers.decoded.items := by
    refine (List.map_congr_left fun h hh => ?_).trans (List.map_id _)
    rw [HeaderLines.lower_of_mem_items (List.mem_filter.1 hh).1]
    rfl
  have hheaders : ∀ resp : HttpResponse, response outcome = some resp →
      resp.statusCode = outcome.statusCode ∧ resp.body = payload ∧
      ∃ own : HeaderLines, resp.headers = (passedOn up.headers.decoded.items ++ own).encoded ∧
        (∀ h ∈ own, isAscii h.2 = true) ∧
        (∀ name, (own.values name).length ≤ 1) ∧ own.values "content-encoding" = [] := by
    intro resp h
    obtain ⟨own, hrenders⟩ := renders_response h
    have hlines := hrenders.headers
    rw [hresponse, hasgi] at hlines
    exact ⟨hrenders.statusCode, hrenders.body.trans (by rw [hresponse]), own, hlines, hrenders.ascii,
      values_own hrenders.names⟩
  have hsome := @response_isSome outcome
  rw [hresponse] at hsome
  dsimp only at hsome
  -- what a response that keeps the octets says of the payload
  have hpayload : ∀ (resp : HttpResponse) (own : HeaderLines), response outcome = some resp →
      up.headers.Kept →
      resp.headers = (passedOn up.headers.decoded.items ++ own).encoded →
        (∀ h ∈ own, isAscii h.2 = true) →
      own.values "content-encoding" = [] → resp.contentEncoding = up.contentEncoding ∧
        cfg.decodeContent up.contentEncoding up.body = some payload := by
    intro resp own h hkept hlines hascii hno
    rw [h] at hsome
    have hlatin1 : ∀ h ∈ passedOn up.headers.decoded.items ++ own, isLatin1 h.2 = true := by
      refine List.forall_mem_append.2 ⟨fun l hl => ?_, fun l hl => isLatin1_of_isAscii (hascii l hl)⟩
      exact (Bool.and_eq_true_iff.1 (List.all_eq_true.1 hsome.symm l hl)).2
    have hread : resp.headers.latin1 = passedOn up.headers.decoded.items ++ own := by
      rw [hlines, WireLines.latin1_encoded hlatin1]
    obtain ⟨hresp, hread⟩ := contentEncoding_response hkept hno hread
    exact ⟨hresp, hread ▸ hdecode⟩
  constructor
  · rintro ⟨resp, h, hr⟩
    obtain ⟨-, hbody, own, hlines, hascii, hown, hno⟩ := hheaders resp h
    rw [h] at hsome
    have hall := List.all_eq_true.1 hsome.symm
    obtain ⟨hdistinct, hkept⟩ :=
      kept_of_subperm hascii hown (fun l hl => (Bool.and_eq_true_iff.1 (hall l hl)).2)
        (hlines ▸ hr.lines)
    obtain ⟨hencoding, hread⟩ := hpayload resp own h hkept hlines hascii hno
    refine ⟨?_, hdistinct, fun l hl => ?_, hkept⟩
    · rw [← hread, ← hr.payload, hencoding, hbody]
    · rw [WireLines.items_decoded hdistinct] at hall
      have hname := (Bool.and_eq_true_iff.1 (hall _ (List.mem_map_of_mem hl))).1
      obtain ⟨l₀, -, rfl⟩ := WireLines.exists_of_mem_passed hl
      rwa [asciiLower_asciiLower] at hname
  · intro hr
    have hitems := WireLines.items_decoded hr.distinct
    have hlatin1 : (response outcome).isSome = true := by
      rw [hsome, hitems]
      refine List.all_eq_true.2 fun l hl => ?_
      obtain ⟨l', hl', rfl⟩ := List.mem_map.1 hl
      have hname := hr.names l' hl'
      obtain ⟨l₀, -, hl₀⟩ := WireLines.exists_of_mem_passed hl'
      refine Bool.and_eq_true_iff.2 ⟨?_, (hr.octets.encode_decode hl').1⟩
      rw [hl₀] at hname ⊢
      rwa [asciiLower_asciiLower]
    obtain ⟨resp, h⟩ := Option.isSome_iff_exists.1 hlatin1
    obtain ⟨hs, hbody, own, hlines, hascii, -, hno⟩ := hheaders resp h
    obtain ⟨hencoding, hread⟩ := hpayload resp own h hr.octets hlines hascii hno
    refine ⟨resp, h, hs.trans hstatus, ?_, ?_⟩
    · rw [hencoding, hbody, hr.stable, hread]
    · have hkept : (passedOn up.headers.decoded.items).encoded = up.headers.passed := by
        rw [hitems, HeaderLines.encoded, List.map_map]
        refine (List.map_congr_left fun l hl => ?_).trans (List.map_id _)
        exact Prod.ext rfl (hr.octets.encode_decode hl).2
      rw [hlines, HeaderLines.encoded_append, hkept]
      exact (List.sublist_append_left _ _).subperm

/-! ### The call -/

/-- The outcome carries what one of the upstream's answers decodes to. -/
def Carries (cfg : GatewayConfig) (s : Session platformTables.backend)
    (response : GatewayResponse) : Prop :=
  ∃ n up payload, (s.envs n).reply.upstream = .response up ∧
    cfg.decodeContent up.headers.decoded.contentEncoding up.body = some payload ∧
    response = ⟨up.statusCode, passedOn up.headers.decoded.items, payload⟩

theorem Carries.of_later {s s' : Session platformTables.backend} (hs : s.Later s')
    {response : GatewayResponse} (h : Carries cfg s' response) : Carries cfg s response := by
  obtain ⟨k, hk⟩ := hs
  obtain ⟨n, up, payload, hup, h⟩ := h
  exact ⟨n + k, up, payload, by rw [← hk]; exact hup, h⟩

theorem forward_carries (cfg : GatewayConfig) (url : String) (req : IncomingRequest)
    (s : Session platformTables.backend) :
    (forward cfg url req).Ends (fun result _ => ∀ r, result = .ok r → Carries cfg s r.1)
        (fun _ _ => True) s := by
  unfold forward
  refine Prog.Ends.bind (Q := fun _ s₁ => s.Later s₁) (Prog.ends_ask ⟨1, fun _ => rfl⟩)
    fun start s₁ hs₁ => ?_
  refine Prog.Ends.bind (Q := fun upstream _ => ∀ r : HttpxResponse, upstream = .ok r →
    Carries cfg s ⟨r.statusCode, passedOn r.headers.items, r.content⟩) (Prog.ends_ask ?_)
      fun upstream s₂ hupstream => ?_
  · intro r hr
    cases hreply : (s₁.envs 0).reply.upstream with
    | failure e =>
      rw [hreply] at hr
      cases hr
    | response up =>
      rw [hreply] at hr
      dsimp only at hr
      cases hdecode : cfg.decodeContent up.headers.decoded.contentEncoding up.body with
      | none =>
        rw [hdecode] at hr
        cases hr
      | some payload =>
        rw [hdecode] at hr
        cases hr
        exact Carries.of_later hs₁ ⟨0, up, payload, hreply, hdecode, rfl⟩
  · cases upstream with
    | error e => exact fun r hr => by cases hr
    | ok upstream =>
      refine Prog.Ends.bind (Q := fun _ _ => True) (Prog.ends_ask trivial) fun stop s₃ _ => ?_
      intro r hr
      cases hr
      exact hupstream _ rfl

theorem handle_carries (cfg : GatewayConfig) (req : IncomingRequest) (presentedKey : Option String)
    (s : Session platformTables.backend) :
    (handle cfg req presentedKey).Ends
      (fun outcome _ => outcome.statusCode = outcome.response.statusCode ∧
        Carries cfg s outcome.response)
      (fun _ _ => True) s := by
  unfold handle
  refine ((Prog.ends_later _ s).mono (fun _ _ h => h) fun _ _ _ => trivial).bind fun r s₁ hs₁ => ?_
  refine ((Prog.ends_later _ s₁).mono (fun _ _ h => h) fun _ _ _ => trivial).bind
    fun rateInfo s₂ hs₂ => ?_
  refine ((Prog.ends_later _ s₂).mono (fun _ _ h => h) fun _ _ _ => trivial).bind
    fun consumed s₃ hs₃ => ?_
  refine (forward_carries cfg _ req s₃).bind fun result s₄ hcarries => ?_
  cases result with
  | error e =>
    dsimp only
    split
    · exact (Prog.ends_true _ s₄).bind fun _ _ _ => Prog.ends_raise trivial
    · exact Prog.ends_raise trivial
  | ok result =>
    refine Prog.Ends.bind (Q := fun _ _ => True) (Prog.ends_ask trivial) fun timestamp s₅ _ => ?_
    exact ⟨rfl, Carries.of_later (hs₁.trans (hs₂.trans hs₃)) (hcarries _ rfl)⟩

/-- Response fidelity: of whatever response the upstream has given, the route builds one that says
the same exactly if decoding the payload once more gives it back, no name that is passed on is
repeated, and a response can carry the lines. -/
theorem response_relayed_iff (cfg : GatewayConfig) (req : IncomingRequest)
    (presentedKey : Option String) (s : Session platformTables.backend) :
    (handle cfg req presentedKey).Ends
      (fun outcome _ => ∃ n up payload, (s.envs n).reply.upstream = .response up ∧
        cfg.decodeContent up.headers.decoded.contentEncoding up.body = some payload ∧
        ((∃ resp, response outcome = some resp ∧ up.RelayedAs cfg resp) ↔ up.Relayable cfg payload))
      (fun _ _ => True) s := by
  refine (handle_carries cfg req presentedKey s).mono (fun outcome _ h => ?_) fun _ _ _ => trivial
  obtain ⟨hstatus, n, up, payload, hup, hdecode, hresponse⟩ := h
  exact ⟨n, up, payload, hup, hdecode, relayed_iff hresponse (by rw [hstatus, hresponse]) hdecode⟩

theorem relayable_of_plain (hplain : ∀ body, cfg.decodeContent none body = some body)
    (hnone : up.contentEncoding = none) (hdistinct : (up.headers.passed.map (·.1)).Nodup)
    (hnames : ∀ h ∈ up.headers.passed, isLatin1 h.1 = true)
    (hascii : ∀ h ∈ up.headers.passed, ∀ o ∈ h.2, o.toNat < 0x80) : up.Relayable cfg payload :=
  ⟨by rw [hnone, hplain], hdistinct, hnames, .inr hascii⟩

/-- `{}`, compressed with gzip. -/
def sampleGzip : Bytes :=
  [31, 139, 8, 0, 0, 0, 0, 0, 2, 3, 171, 174, 5, 0, 67, 191, 166, 163, 2, 0, 0, 0]

/-- A configuration whose decoder knows that body, and no other one that is compressed. -/
def sampleGzipConfig : GatewayConfig where
  __ := sampleConfig
  decodeContent encoding body := if encoding = some "gzip" then if body = sampleGzip then some
    [123, 125] else none else some body

def sampleGzipResponse : HttpResponse :=
  ⟨200, [("Content-Type", encodeLatin1 "application/json"),
    ("Content-Encoding", encodeLatin1 "gzip")],
  sampleGzip⟩

def sampleGzipEnv (n : Nat) : Env PlatformInput :=
  ⟨epoch + n, "", 0, ⟨.response sampleGzipResponse, .ok ()⟩⟩

/-- The client gets a body that is not compressed, as one that is. -/
theorem gzip_not_relayed : ¬ ∀ (cfg : GatewayConfig) (request : HttpRequest)
    (envs : Nat → Env PlatformInput) (s : State platformTables.backend) (up resp : HttpResponse),
    (∀ n, (envs n).reply.upstream = .response up) →
    (scope (proxy cfg request) envs s).1 = .ok resp → up.RelayedAs cfg resp := by
  intro h
  have hrelayed :=
    h sampleGzipConfig sampleRequest sampleGzipEnv
      (⟨sampleDailyDb, sampleGatewayWorld⟩ : State platformTables.backend)
    sampleGzipResponse
      ⟨200, [("content-type", encodeLatin1 "application/json"),
        ("content-encoding", encodeLatin1 "gzip"),
      ("x-gateway-latency-ms", encodeLatin1 "0.0"), ("content-length", encodeLatin1 "2")], [123,
        125]⟩ (fun _ => rfl) (by decide +kernel)
  exact absurd hrelayed.payload (by decide +kernel)

end TrafficPlatform
