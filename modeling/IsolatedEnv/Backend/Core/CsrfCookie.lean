import IsolatedEnv.Backend.Core.Middleware
import IsolatedEnv.Foundation.Cookies

/-!
# The cookie of the double submit

`send_with_csrf` writes the token into a `Set-Cookie` line.  A user agent takes the
attribute of the name `HttpOnly` for what it says, whatever its value, so the
cookie is hidden from the script that is to copy it into the header.
-/

namespace IsolatedEnv.Backend

open IsolatedEnv.Foundation

/-- The token that the request has brought, if it is not empty. -/
def carriedToken (request : HttpRequest) : Option String :=
  (request.cookies.lookup "csrf_token").filter fun token => token ≠ ""

/-- `request.cookies.get(CSRF_COOKIE) or secrets.token_urlsafe(32)`. -/
def csrfToken (request : HttpRequest) : String :=
  (carriedToken request).getD request.urlsafe

/-- `cookie.encode()`. -/
def setCookieLine (site : Site) (request : HttpRequest) : List Char :=
  encodeUtf8 (csrfCookie site request).toList

/-- The attributes the cookie is to have. -/
def meantAttributes (site : Site) : List Cookies.Attribute :=
  [.path (some "/"), .sameSite "Strict"] ++ if site.debug then [] else [.secure]

/-- What `request.cookies` gives for the token once the cookie is sent back. -/
def tokenSentBack (c : Cookies.SetCookie) : Option String :=
  (Cookies.readCookies (Cookies.cookieString c)).lookup "csrf_token"

def CookieAsMeant (site : Site) (request : HttpRequest) : Prop :=
  ∃ c, Cookies.parseSetCookie (setCookieLine site request) = some c ∧
    c.name = "csrf_token".toList ∧
    (∀ a, a ∈ c.attributes ↔ a ∈ meantAttributes site) ∧
    ∀ token ∈ carriedToken request, tokenSentBack c = some token

/-- The same, with the cookie hidden from scripts, and for a fresh token too. -/
def CookieReturns (site : Site) (request : HttpRequest) : Prop :=
  ∃ c, Cookies.parseSetCookie (setCookieLine site request) = some c ∧
    c.name = "csrf_token".toList ∧
    (∀ a, a ∈ c.attributes ↔ a ∈ meantAttributes site ∨ a = .httpOnly) ∧
    tokenSentBack c = some (csrfToken request)

/-! ## The line taken apart -/

section Line

variable {site : Site} {request : HttpRequest}

theorem csrfCookie_eq (site : Site) (request : HttpRequest) :
    csrfCookie site request =
      "csrf_token=" ++ csrfToken request ++ "; Path=/; SameSite=Strict; HttpOnly=false" ++
        (if site.debug then "" else "; Secure") := by
  unfold csrfCookie csrfToken carriedToken
  cases request.cookies.lookup "csrf_token" with
  | none => rfl
  | some token =>
      dsimp only
      by_cases hempty : token = "" <;> simp [hempty, Option.filter]

/-- What follows the token, from the first semicolon on. -/
def attributeText (site : Site) : List Char :=
  " Path=/; SameSite=Strict; HttpOnly=false".toList ++
    if site.debug then [] else "; Secure".toList

theorem setCookieLine_eq (site : Site) (request : HttpRequest) :
    setCookieLine site request = "csrf_token=".toList ++
      (encodeUtf8 (csrfToken request).toList ++ ';' :: attributeText site) := by
  have hname : encodeUtf8 "csrf_token=".toList = "csrf_token=".toList := by
    decide +kernel
  have hattributes : encodeUtf8 ("; Path=/; SameSite=Strict; HttpOnly=false" ++
      (if site.debug then "" else "; Secure")).toList = ';' :: attributeText site := by
    unfold attributeText
    cases site.debug <;> decide +kernel
  unfold setCookieLine
  rw [csrfCookie_eq, String.append_assoc, String.append_assoc, String.toList_append,
    String.toList_append, encodeUtf8_append, encodeUtf8_append, hname, hattributes]

theorem readAttributes_text (site : Site) :
    ((attributeText site).splitOn ';').filterMap Cookies.readAttribute =
      [.path (some "/"), .sameSite "Strict", .httpOnly] ++
        if site.debug then [] else [.secure] := by
  unfold attributeText
  cases site.debug <;> decide +kernel

theorem mem_readAttributes {a : Cookies.Attribute} :
    a ∈ ((attributeText site).splitOn ';').filterMap Cookies.readAttribute ↔
      a ∈ meantAttributes site ∨ a = .httpOnly := by
  rw [readAttributes_text, meantAttributes]
  simp only [List.mem_append, List.mem_cons, List.not_mem_nil, or_false]
  tauto

/-- The token up to its first semicolon is the value; the rest comes as attributes. -/
theorem parseSetCookie_line (site : Site) (request : HttpRequest) :
    ∃ c extra, Cookies.parseSetCookie (setCookieLine site request) = some c ∧
      c.name = "csrf_token".toList ∧
      c.value = stripChars Cookies.isWsp
        ((encodeUtf8 (csrfToken request).toList).takeWhile (· ≠ ';')) ∧
      c.attributes = extra ++
        ((attributeText site).splitOn ';').filterMap Cookies.readAttribute ∧
      (';' ∉ encodeUtf8 (csrfToken request).toList → extra = []) := by
  obtain ⟨after, hafter⟩ :=
    Cookies.splitOn_eq_cons ';' (encodeUtf8 (csrfToken request).toList)
  have hparts : (setCookieLine site request).splitOn ';' =
      ("csrf_token=".toList ++
        (encodeUtf8 (csrfToken request).toList).takeWhile (· ≠ ';')) ::
        (after ++ (attributeText site).splitOn ';') := by
    rw [setCookieLine_eq, ← List.append_assoc, Cookies.splitOn_cons_separator,
      Cookies.splitOn_append (by decide), hafter]
    rfl
  have hcut (value : List Char) : Cookies.cut '=' ("csrf_token=".toList ++ value) =
      ("csrf_token".toList, some value) :=
    Cookies.cut_append (by decide : '=' ∉ "csrf_token".toList)
  have hname : stripChars Cookies.isWsp "csrf_token".toList = "csrf_token".toList := by
    decide
  refine ⟨⟨"csrf_token".toList, stripChars Cookies.isWsp
    ((encodeUtf8 (csrfToken request).toList).takeWhile (· ≠ ';')),
    (after ++ (attributeText site).splitOn ';').filterMap Cookies.readAttribute⟩,
    after.filterMap Cookies.readAttribute, ?_, rfl, rfl, List.filterMap_append, ?_⟩
  · unfold Cookies.parseSetCookie
    rw [hparts]
    dsimp only
    rw [hcut]
    dsimp only
    rw [hname, if_neg (by decide)]
  · intro hnone
    rw [Cookies.splitOn_of_notMem hnone] at hafter
    rw [(List.cons.inj hafter).2.symm]
    rfl

theorem tokenSentBack_eq {c : Cookies.SetCookie} (hname : c.name = "csrf_token".toList)
    (hvalue : c.value = stripChars Cookies.isWsp
      ((encodeUtf8 (csrfToken request).toList).takeWhile (· ≠ ';'))) :
    tokenSentBack c =
      some (String.ofList (Cookies.returned (csrfToken request).toList)) := by
  have hnone : ';' ∉ Cookies.cookieString c := by
    obtain ⟨before, after, hstrip, -⟩ := Cookies.stripChars_spec Cookies.isWsp
      ((encodeUtf8 (csrfToken request).toList).takeWhile (· ≠ ';'))
    have hvalue' : ';' ∉ c.value := by
      intro hmem
      have hoctet : ';' ∈ (encodeUtf8 (csrfToken request).toList).takeWhile (· ≠ ';') := by
        rw [hstrip, ← hvalue]
        simp [hmem]
      have hne := List.mem_takeWhile_imp hoctet
      simp at hne
    rw [Cookies.cookieString, hname, List.mem_append, List.mem_cons, not_or, not_or]
    exact ⟨by decide, by decide, hvalue'⟩
  have hcut : Cookies.cut '=' (Cookies.cookieString c) =
      ("csrf_token".toList, some c.value) := by
    rw [Cookies.cookieString, hname]
    exact Cookies.cut_append (by decide)
  have hkey : stripChars isSpace "csrf_token".toList = "csrf_token".toList := by decide
  have hstripped : stripChars isSpace c.value = stripChars isSpace
      ((encodeUtf8 (csrfToken request).toList).takeWhile (· ≠ ';')) := by
    rw [hvalue]
    refine Cookies.stripChars_stripChars (fun d hd => ?_) _
    simp only [Cookies.isWsp, Bool.or_eq_true, decide_eq_true_eq] at hd
    rcases hd with rfl | rfl <;> decide
  have hchunk : Cookies.readChunk (Cookies.cookieString c) = some ("csrf_token",
      String.ofList (Cookies.returned (csrfToken request).toList)) := by
    unfold Cookies.readChunk Cookies.returned
    rw [hcut]
    dsimp only
    rw [hkey, hstripped, if_neg (by simp)]
    rfl
  rw [tokenSentBack, Cookies.readCookies, Cookies.splitOn_of_notMem hnone,
    List.filterMap_cons, hchunk]
  rfl

/-- Whatever the token, the line has the attribute `HttpOnly`. -/
theorem httpOnly_sent (site : Site) (request : HttpRequest) :
    ¬CookieAsMeant site request := by
  rintro ⟨c, hparse, -, hattributes, -⟩
  obtain ⟨c', extra, hparse', -, -, hattributes', -⟩ := parseSetCookie_line site request
  rw [hparse] at hparse'
  cases hparse'
  have hmem : .httpOnly ∈ c.attributes := by
    rw [hattributes']
    exact List.mem_append_right _ (mem_readAttributes.mpr (.inr rfl))
  have hmeant := (hattributes _).mp hmem
  unfold meantAttributes at hmeant
  cases hdebug : site.debug <;> simp [hdebug] at hmeant

theorem cookieReturns_iff (site : Site) (request : HttpRequest) :
    CookieReturns site request ↔ Cookies.PlainValue (csrfToken request).toList := by
  obtain ⟨c, extra, hparse, hname, hvalue, hattributes, hextra⟩ :=
    parseSetCookie_line site request
  have hback := tokenSentBack_eq hname hvalue
  rw [← Cookies.returned_eq_self_iff]
  constructor
  · rintro ⟨c', hparse', -, -, htoken⟩
    rw [hparse] at hparse'
    cases hparse'
    rw [hback, Option.some.injEq] at htoken
    have hchars := congrArg String.toList htoken
    rwa [String.toList_ofList] at hchars
  · intro hplain
    have hascii := (Cookies.plain_of_returned hplain)
    refine ⟨c, hparse, hname, fun a => ?_, ?_⟩
    · rw [hattributes, hextra ?_, List.nil_append, mem_readAttributes]
      rw [encodeUtf8_ascii hascii.ascii]
      exact hascii.noSemicolon
    · rw [hback, hplain, String.ofList_toList]

end Line

/--
The cookie is never the one that is meant; but for the attribute that hides it, it is
exactly when the token is plain.
-/
theorem csrf_cookie_never_as_meant (site : Site) :
    (∀ request, ¬CookieAsMeant site request) ∧
      ∀ request, CookieReturns site request ↔
        Cookies.PlainValue (csrfToken request).toList :=
  ⟨httpOnly_sent site, cookieReturns_iff site⟩

/-- A first visit. -/
def firstVisit : HttpRequest where
  method := "GET"
  headers := []
  cookies := []
  hex := "0123456789abcdef0123456789abcdef"
  urlsafe := "Drmhze6EPcv0fN_81Bj-nA"

theorem first_visit_cookie_hidden :
    ¬∀ site request, CookieAsMeant site request := by
  intro hall
  obtain ⟨c, hparse, -, hattributes, -⟩ := hall faultySite firstVisit
  have hsent : Cookies.parseSetCookie (setCookieLine faultySite firstVisit) =
      some ⟨"csrf_token".toList, "Drmhze6EPcv0fN_81Bj-nA".toList,
        [.path (some "/"), .sameSite "Strict", .httpOnly, .secure]⟩ := by decide +kernel
  rw [hsent] at hparse
  cases hparse
  have hmeant := (hattributes .httpOnly).mp (by decide)
  exact absurd hmeant (by decide)

end IsolatedEnv.Backend
