import TrafficPlatform.Kit.Octets

/-!
# HTTP messages

The requests and responses of the gateway in the three forms in which it meets them: Starlette's
request and response, and httpx's response. A header list keeps one entry for each line of the
message; on the wire its value is octets, which httpx decodes and Starlette encodes.
-/

namespace TrafficPlatform
open Kit

abbrev Bytes := List UInt8

/-- The lines of a header, in their order. -/
abbrev HeaderLines := List (String × String)

/-- The lines on the wire: the name is an ASCII token, the value octets. -/
abbrev WireLines := List (String × Bytes)

def asciiLower (s : String) : String := s.map Char.toLower

theorem toLower_toLower (c : Char) : c.toLower.toLower = c.toLower := by
  by_cases h : c.val ≥ 'A'.val ∧ c.val ≤ 'Z'.val
  · have hval : c.toLower.val = c.val + 32 := by
      unfold Char.toLower
      rw [dif_pos h]
      rfl
    obtain ⟨h₁, h₂⟩ : (65 : UInt32) ≤ c.val ∧ c.val ≤ 90 := h
    have hno : ¬ ((65 : UInt32) ≤ c.toLower.val ∧ c.toLower.val ≤ 90) := by
      rw [hval]
      simp only [UInt32.le_iff_toNat_le, UInt32.toNat_add] at h₁ h₂ ⊢
      simp only [UInt32.reduceToNat] at h₁ h₂ ⊢
      omega
    exact dif_neg hno
  · have hsame : c.toLower = c := dif_neg h
    rw [hsame, hsame]

theorem asciiLower_asciiLower (s : String) : asciiLower (asciiLower s) = asciiLower s := by
  unfold asciiLower
  rw [String.map_map]
  congr 1
  funext c
  exact toLower_toLower c

/-! ### Strings -/

/-- `c.isspace()`. -/
def isSpace (c : Char) : Bool :=
  (9 ≤ c.toNat && c.toNat ≤ 13) || (28 ≤ c.toNat && c.toNat ≤ 32) ||
    [0x85, 0xa0, 0x1680, 0x2028, 0x2029, 0x202f, 0x205f, 0x3000].contains c.toNat ||
    (0x2000 ≤ c.toNat && c.toNat ≤ 0x200a)

def dropRightWhile (p : Char → Bool) (s : List Char) : List Char := (s.reverse.dropWhile p).reverse

/-- `s.strip()`. -/
def strip (s : String) : String := .ofList (dropRightWhile isSpace (s.toList.dropWhile isSpace))

/-- `s.rstrip("/")`. -/
def rstripSlash (s : String) : String := .ofList (dropRightWhile (· == '/') s.toList)

/-- `s.lstrip("/")`. -/
def lstripSlash (s : String) : String := .ofList (s.toList.dropWhile (· == '/'))

/-- `s.split(",")[0]`. -/
def beforeComma (s : String) : String := .ofList (s.toList.takeWhile (· != ','))

/-! ### Starlette -/

/-- What the route reads of a request. Header names are in lower case, the path is decoded. -/
structure HttpRequest where
  method : String
  apiSlug : String
  version : String
  upstreamPath : String
  queryString : String
  headers : HeaderLines
  body : Bytes
  clientHost : Option String
deriving DecidableEq, Repr

/-- `headers.get(name)`: the first line of that name. -/
def HeaderLines.get (headers : HeaderLines) (name : String) : Option String :=
  (headers.find? fun h => h.1 == name).map (·.2)

/-- `dict(headers)`: the first line of each name. -/
def HeaderLines.dict : HeaderLines → HeaderLines
  | [] => []
  | h :: hs => h :: (HeaderLines.dict hs).filter fun h' => h'.1 != h.1

/-- A response on the wire. -/
structure HttpResponse where
  statusCode : Nat
  headers : WireLines
  body : Bytes
deriving DecidableEq, Repr

/-- `s.encode("latin-1")` does not fail. -/
def isLatin1 (s : String) : Bool := s.toList.all fun c => decide (c.toNat < 256)

/-- `s.encode("latin-1")`, if that does not fail. -/
def encodeLatin1 (s : String) : Bytes := latin1Octets s.toList

/-- The lines as they are sent. -/
def HeaderLines.encoded (lines : HeaderLines) : WireLines := lines.map fun h => (h.1, encodeLatin1 h.2)

/-- The characters of ASCII. -/
def isAscii (s : String) : Bool := s.toList.all fun c => decide (c.toNat < 128)

theorem isLatin1_of_isAscii {s : String} (h : isAscii s = true) : isLatin1 s = true := by
  refine List.all_eq_true.2 fun c hc => decide_eq_true ?_
  have hlt := of_decide_eq_true (List.all_eq_true.1 h c hc)
  omega

theorem isAscii_append (a b : String) : isAscii (a ++ b) = (isAscii a && isAscii b) := by
  simp [isAscii, String.toList_append]

theorem isAscii_nat (n : Nat) : isAscii (toString n) = true := by
  rw [Nat.toString_eq_repr]
  unfold isAscii
  rw [Nat.toList_repr]
  refine List.all_eq_true.2 fun c hc => decide_eq_true ?_
  have hdigit := Nat.isDigit_of_mem_toDigits (by decide) (by decide) hc
  simp only [Char.isDigit, Bool.and_eq_true, decide_eq_true_eq] at hdigit
  have hle : c.val.toNat ≤ 57 := hdigit.2
  show c.val.toNat < 128
  omega

theorem isAscii_int (n : Int) : isAscii (toString n) = true := by
  rw [Int.toString_eq_repr, Int.repr_eq_if]
  split
  · exact isAscii_nat _
  · rw [isAscii_append]
    exact Bool.and_eq_true_iff.2 ⟨by decide, isAscii_nat _⟩

/-- `Response(content, status_code, headers)`: the names in lower case, and the length of the body
where a response of that status has one. A header that is not Latin-1 text is an exception. -/
def starletteResponse (content : Bytes) (statusCode : Nat) (headers : HeaderLines) :
    Option HttpResponse :=
  let lines := headers.map fun h => (asciiLower h.1, h.2)
  if lines.all fun h => isLatin1 h.1 && isLatin1 h.2 then
    some {
      statusCode := statusCode
      headers := HeaderLines.encoded <|
        if lines.any (fun h => h.1 == "content-length") || decide (statusCode < 200) ||
          statusCode == 204 ||
          statusCode == 304 then lines
        else lines ++ [("content-length", toString content.length)]
      body := content }
  else none

theorem starletteResponse_isSome (content : Bytes) (statusCode : Nat) (headers : HeaderLines) :
    (starletteResponse content statusCode headers).isSome =
      headers.all fun h => isLatin1 (asciiLower h.1) && isLatin1 h.2 := by
  unfold starletteResponse
  dsimp only
  rw [List.all_map]
  cases h : headers.all ((fun h => isLatin1 h.1 && isLatin1 h.2) ∘ fun h => (asciiLower h.1, h.2)) with
  | true => exact h.symm
  | false => exact h.symm

/-! ### httpx -/

/-- What is sent to an upstream. -/
structure UpstreamRequest where
  method : String
  url : String
  headers : HeaderLines
  body : Bytes
deriving DecidableEq, Repr

/-- `headers.items()`: one entry for each name, in lower case, with the values of its lines joined. -/
def HeaderLines.items : HeaderLines → HeaderLines
  | [] => []
  | h :: hs =>
    let name := asciiLower h.1
    let others := (hs.filter fun h' => asciiLower h'.1 == name).map (·.2)
    (name, others.foldl (fun v v' => v ++ ", " ++ v') h.2) :: (items hs).filter fun h' => h'.1 != name

/-- `headers.encoding`: UTF-8 if all values are that, else Latin-1. -/
def WireLines.decode (lines : WireLines) (value : Bytes) : String :=
  .ofList (if lines.all
    fun h => (utf8Decode h.2).isSome then (utf8Decode value).getD [] else latin1Chars value)

/-- The lines as httpx reads them. -/
def WireLines.decoded (lines : WireLines) : HeaderLines := lines.map fun h => (h.1, lines.decode h.2)

/-- `httpx.Response`: the header decoded, and the body with its encoding undone. -/
structure HttpxResponse where
  statusCode : Nat
  headers : HeaderLines
  content : Bytes
deriving DecidableEq, Repr

/-- What `http.request` raises, or the cancellation of the task that awaits it. -/
inductive HttpxError
  | timeout
  | httpError
  | cancelled
  | other (what : String)
deriving DecidableEq, Repr

/-- What comes back from an upstream. -/
inductive UpstreamReply
  | response (r : HttpResponse)
  | failure (e : HttpxError)
deriving DecidableEq, Repr

/-- The value of the `Content-Encoding` header. -/
def HeaderLines.contentEncoding (headers : HeaderLines) : Option String :=
  headers.items.get "content-encoding"

end TrafficPlatform
