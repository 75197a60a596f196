import Mathlib.Data.List.Perm.Basic
import Mathlib.Data.List.Sort
import Mathlib.Data.String.Basic
import ConfFriends.Country
import ConfFriends.PercentEncoding
import ConfFriends.Pods.TwitterAuthorization

/-!
# The signature base strings

The app signs requests to Twitter with two implementations of OAuth : the sign-in with
`FCBasicOAuthConsumer`, and the requests for friends with `STTwitterOAuth`. Both sign a base
string of the method, the URL and the parameters, percent-encoded twice. The first sorts a
dictionary of parameters by their names, in the order of the locale, the second a list of
parameters by their encoded names, in the order of their characters.

Both encode all characters but the unreserved ones, so a base string tells the method, the
URL and the parameters (`signatureBaseString_eq_iff`, `signedText_eq_iff`). The two agree iff
the locale sorts the names as their encodings are sorted and the secrets need no encoding
(`signsAlike_iff`).
-/

set_option linter.unusedSectionVars false

namespace ConfFriends.Pods

/-! ## Encodings -/

/-- The unreserved characters of RFC 3986. -/
def isUnreserved (c : Char) : Bool :=
  c.isAlphanum || c = '-' || c = '.' || c = '_' || c = '~'

/-- `URLQueryAllowedCharacterSet` -/
def urlQueryAllowed (c : Char) : Bool :=
  isUnreserved c || c ∈ "!$&'()*+,;=:@/?".toList

/-- The characters that `rawURLEncodedString:` leaves. -/
def urlEncodingAllowedCharacters (c : Char) : Bool :=
  urlQueryAllowed c && c ∉ "?=&+:;@/$!'()\",*".toList

def rawURLEncodedString (s : String) : String :=
  addingPercentEncoding urlEncodingAllowedCharacters s

/-- The characters that `CFURLCreateStringByAddingPercentEscapes` takes to be legal. -/
def isLegalURLCharacter (c : Char) : Bool :=
  isUnreserved c || c ∈ "!*'();:@&=+$,/?".toList

/-- The characters that `st_stringByAddingRFC3986PercentEscapesUsingEncoding:` leaves. -/
def unescapedCharacters (c : Char) : Bool :=
  isLegalURLCharacter c && c ∉ "!*'();:@&=+$,/?%#[]".toList

def st_urlEncodedString (s : String) : String :=
  addingPercentEncoding unescapedCharacters s

/-- Reserved characters are allowed and then removed. -/
theorem allowed_eq_isUnreserved {allowed removed : String}
    (hsubset : allowed.toList.all fun c => removed.toList.contains c)
    (hremoved : removed.toList.all fun c => !isUnreserved c) (c : Char) :
    ((isUnreserved c || c ∈ allowed.toList) && c ∉ removed.toList) = isUnreserved c := by
  cases hc : isUnreserved c with
  | true =>
    have hmem : c ∉ removed.toList := by
      intro hmem
      have hno := List.all_eq_true.1 hremoved c hmem
      simp [hc] at hno
    simp [hmem]
  | false =>
    by_cases hmem : c ∈ allowed.toList
    · have hsub : c ∈ removed.toList := by simpa using List.all_eq_true.1 hsubset c hmem
      simp [hmem, hsub]
    · simp [hmem]

theorem urlEncodingAllowedCharacters_eq : urlEncodingAllowedCharacters = isUnreserved :=
  funext (allowed_eq_isUnreserved (by decide) (by decide))

theorem unescapedCharacters_eq : unescapedCharacters = isUnreserved :=
  funext (allowed_eq_isUnreserved (by decide) (by decide))

/-- The two implementations encode alike. -/
theorem st_urlEncodedString_eq : st_urlEncodedString = rawURLEncodedString := by
  funext s
  rw [st_urlEncodedString, rawURLEncodedString, unescapedCharacters_eq,
    urlEncodingAllowedCharacters_eq]

theorem toNat_lt_of_isAlphanum {c : Char} (h : c.isAlphanum = true) : c.toNat < 128 := by
  have hlt : ∀ bound : Char, c.val ≤ bound.val → bound.toNat < 128 → c.toNat < 128 :=
    fun _ hle => (UInt32.le_iff_toNat_le.1 hle).trans_lt
  rcases Bool.or_eq_true_iff.1 h with hletter | hdigit
  · rcases Bool.or_eq_true_iff.1 hletter with hupper | hlower
    · exact hlt 'Z' (of_decide_eq_true hupper).2 (by decide)
    · exact hlt 'z' (of_decide_eq_true (Bool.and_eq_true_iff.1 hlower).2) (by decide)
  · exact hlt '9' (of_decide_eq_true (Bool.and_eq_true_iff.1 hdigit).2) (by decide)

theorem plainASCII_isUnreserved : PlainASCII isUnreserved := by
  intro c hc
  constructor
  · simp only [isUnreserved, Bool.or_eq_true, decide_eq_true_eq] at hc
    rcases hc with (((hc | rfl) | rfl) | rfl) | rfl
    · exact toNat_lt_of_isAlphanum hc
    all_goals decide
  · rintro rfl
    revert hc
    decide

theorem rawURLEncodedString_injective : Function.Injective rawURLEncodedString := by
  have hinj := addingPercentEncoding_injective plainASCII_isUnreserved
  rwa [← urlEncodingAllowedCharacters_eq] at hinj

theorem undelimited_rawURLEncodedString (s : String) : Undelimited (rawURLEncodedString s) :=
  undelimited_addingPercentEncoding (by decide) (by decide) s

/-! ## Base strings -/

/-- The methods of the requests. -/
inductive HTTPMethod
  | get | post
  deriving DecidableEq

def HTTPMethod.name : HTTPMethod → String
  | .get => "GET"
  | .post => "POST"

/-- `uppercaseString` of an ASCII text. -/
def HTTPMethod.uppercaseString (method : HTTPMethod) : String :=
  String.ofList (method.name.toList.map Char.toUpper)

theorem HTTPMethod.uppercaseString_eq (method : HTTPMethod) :
    method.uppercaseString = method.name := by
  cases method <;> decide

/-- What Foundation reads off the URL of a request. -/
structure RequestURL where
  scheme : String
  user : Option String := none
  password : Option String := none
  host : String
  port : Option ℕ := none
  percentEncodedPath : String
  /-- The path of `NSURL`, without percent escapes. -/
  path : String
  queryItems : List (String × Option String) := []
  fragment : Option String := none
  deriving DecidableEq

namespace RequestURL

/-- `st_normalizedForOauthSignatureString` -/
def st_normalizedForOauthSignatureString (url : RequestURL) : String :=
  url.scheme ++ "://" ++ url.host ++ url.path

/-- The user with the password, and an `@`. -/
def userinfo (url : RequestURL) : String :=
  url.user.elim "" fun user => user ++ url.password.elim "" (":" ++ ·) ++ "@"

/-- `absoluteString` of the URL without its query. -/
def urlWithoutQueryParameters (url : RequestURL) : String :=
  url.scheme ++ "://" ++ url.userinfo ++ url.host ++ url.port.elim "" (":" ++ toString ·) ++
    url.percentEncodedPath ++ url.fragment.elim "" ("#" ++ ·)

/-- The URL is no more than a scheme, a host, a path without escapes, and a query. -/
structure Plain (url : RequestURL) : Prop where
  user : url.user = none
  port : url.port = none
  fragment : url.fragment = none
  path : url.path = url.percentEncodedPath

theorem Plain.urlWithoutQueryParameters_eq {url : RequestURL} (h : url.Plain) :
    url.urlWithoutQueryParameters = url.st_normalizedForOauthSignatureString := by
  simp [urlWithoutQueryParameters, st_normalizedForOauthSignatureString, userinfo, h.user, h.port,
    h.fragment, h.path]

end RequestURL

/-- The method and two encoded texts. -/
def joinBase (method : HTTPMethod) (url parameters : String) : String :=
  componentsJoinedBy '&' [method.name, rawURLEncodedString url, rawURLEncodedString parameters]

theorem joinBase_eq_iff {method method' : HTTPMethod} {url url' parameters parameters' : String} :
    joinBase method url parameters = joinBase method' url' parameters' ↔
      method = method' ∧ url = url' ∧ parameters = parameters' := by
  have hsplit : ∀ (method : HTTPMethod) (url parameters : String),
      componentsSeparatedBy '&' (joinBase method url parameters) =
        [method.name, rawURLEncodedString url, rawURLEncodedString parameters] := by
    intro method url parameters
    refine componentsSeparatedBy_joinedBy (by simp) fun s hs => ?_
    rcases List.mem_cons.1 hs with rfl | hs
    · cases method <;> decide
    · obtain rfl | rfl : s = rawURLEncodedString url ∨ s = rawURLEncodedString parameters := by
        simpa using hs
      · exact (undelimited_rawURLEncodedString url).1
      · exact (undelimited_rawURLEncodedString parameters).1
  constructor
  · intro h
    have hcomponents := congrArg (componentsSeparatedBy '&') h
    simp only [hsplit, List.cons.injEq, and_true] at hcomponents
    obtain ⟨hname, hurl, hparameters⟩ := hcomponents
    refine ⟨?_, rawURLEncodedString_injective hurl, rawURLEncodedString_injective hparameters⟩
    cases method <;> cases method' <;> simp [HTTPMethod.name] at hname ⊢
  · rintro ⟨rfl, rfl, rfl⟩
    rfl

/-- A parameter with both sides encoded. -/
def encodedParameter (p : String × String) : String × String :=
  (rawURLEncodedString p.1, rawURLEncodedString p.2)

theorem encodedParameter_injective : Function.Injective encodedParameter := by
  intro p q h
  obtain ⟨h₁, h₂⟩ := Prod.mk.inj h
  exact Prod.ext (rawURLEncodedString_injective h₁) (rawURLEncodedString_injective h₂)

/-- Encoded parameters are determined by what they are joined to. -/
theorem joinPairs_encoded_eq_iff {ps ps' : List (String × String)}
    (h : ∀ p ∈ ps, ∃ q, p = encodedParameter q) (h' : ∀ p ∈ ps', ∃ q, p = encodedParameter q) :
    joinPairs ps = joinPairs ps' ↔ ps = ps' := by
  have hundelimited : ∀ p : String × String, (∃ q, p = encodedParameter q) →
      Undelimited p.1 ∧ Undelimited p.2 := by
    rintro _ ⟨q, rfl⟩
    exact ⟨undelimited_rawURLEncodedString q.1, undelimited_rawURLEncodedString q.2⟩
  exact ⟨joinPairs_injective (fun p hp => hundelimited p (h p hp))
    fun p hp => hundelimited p (h' p hp), congrArg joinPairs⟩

/-! ## The requests for friends -/

/-- The order of `parametersDictionariesSortedByKey:`. Encoded names are ASCII. -/
def keyAscending (p q : String × String) : Bool :=
  p.1 ≤ q.1

def parametersSortedByKey (ps : List (String × String)) : List (String × String) :=
  ps.mergeSort keyAscending

/-- `signatureBaseStringWithHTTPMethod:url:allParametersUnsorted:` -/
def signatureBaseString (httpMethod : HTTPMethod) (url : RequestURL)
    (ps : List (String × String)) : String :=
  componentsJoinedBy '&' [httpMethod.uppercaseString,
    st_urlEncodedString url.st_normalizedForOauthSignatureString,
    st_urlEncodedString (joinPairs (parametersSortedByKey
      (ps.map fun p => (st_urlEncodedString p.1, st_urlEncodedString p.2))))]

theorem signatureBaseString_eq (httpMethod : HTTPMethod) (url : RequestURL)
    (ps : List (String × String)) : signatureBaseString httpMethod url ps =
      joinBase httpMethod url.st_normalizedForOauthSignatureString
        (joinPairs (parametersSortedByKey (ps.map encodedParameter))) := by
  rw [signatureBaseString, st_urlEncodedString_eq, httpMethod.uppercaseString_eq]
  rfl

theorem pairwise_parametersSortedByKey (ps : List (String × String)) :
    (parametersSortedByKey ps).Pairwise fun p q => p.1 ≤ q.1 := by
  have htrans : ∀ p q r, keyAscending p q = true → keyAscending q r = true →
      keyAscending p r = true := by
    intro p q r hpq hqr
    simp only [keyAscending, decide_eq_true_eq] at hpq hqr ⊢
    exact hpq.trans hqr
  have htotal : ∀ p q, (keyAscending p q || keyAscending q p) = true := by
    intro p q
    simpa [keyAscending] using le_total p.1 q.1
  exact (List.pairwise_mergeSort htrans htotal ps).imp fun h => by simpa [keyAscending] using h

theorem mem_parametersSortedByKey {ps : List (String × String)} {p : String × String}
    (h : p ∈ parametersSortedByKey (ps.map encodedParameter)) : ∃ q, p = encodedParameter q := by
  obtain ⟨q, -, rfl⟩ := List.mem_map.1 ((List.mergeSort_perm _ _).subset h)
  exact ⟨q, rfl⟩

/-- Parameters with different names are in one order only. -/
theorem eq_of_sortedByKey {ps ps' : List (String × String)} (hperm : ps.Perm ps')
    (hnames : (ps.map Prod.fst).Nodup) (hps : ps.Pairwise fun p q => p.1 ≤ q.1)
    (hps' : ps'.Pairwise fun p q => p.1 ≤ q.1) : ps = ps' := by
  refine hperm.eq_of_pairwise (fun p q hp hq hpq hqp => ?_) hps hps'
  exact List.inj_on_of_nodup_map hnames hp (hperm.symm.subset hq) (le_antisymm hpq hqp)

theorem nodup_encodedNames {ps : List (String × String)} (hnames : (ps.map Prod.fst).Nodup) :
    ((ps.map encodedParameter).map Prod.fst).Nodup := by
  have hmap : (ps.map encodedParameter).map Prod.fst =
      (ps.map Prod.fst).map rawURLEncodedString := by
    rw [List.map_map, List.map_map]
    rfl
  rw [hmap]
  exact hnames.map rawURLEncodedString_injective

/-- Parameters with different names are sorted to one list only. -/
theorem eq_parametersSortedByKey_iff {ps qs : List (String × String)}
    (hnames : (qs.map Prod.fst).Nodup) :
    qs.map encodedParameter = parametersSortedByKey (ps.map encodedParameter) ↔
      ps.Perm qs ∧ (qs.map encodedParameter).Pairwise fun p q => p.1 ≤ q.1 := by
  have hsorted := List.mergeSort_perm (ps.map encodedParameter) keyAscending
  constructor
  · intro h
    refine ⟨(List.map_perm_map_iff encodedParameter_injective).1 ?_, ?_⟩
    · rw [h]
      exact hsorted.symm
    · rw [h]
      exact pairwise_parametersSortedByKey _
  · rintro ⟨hperm, hpairwise⟩
    have hencoded := hsorted.trans (hperm.map encodedParameter)
    exact eq_of_sortedByKey hencoded.symm (nodup_encodedNames hnames) hpairwise
      (pairwise_parametersSortedByKey _)

/-- A base string tells the method, the normalized URL and the parameters, but not their
order. -/
theorem signatureBaseString_eq_iff {httpMethod httpMethod' : HTTPMethod} {url url' : RequestURL}
    {ps ps' : List (String × String)} (hnames : (ps.map Prod.fst).Nodup) :
    signatureBaseString httpMethod url ps = signatureBaseString httpMethod' url' ps' ↔
      httpMethod = httpMethod' ∧ url.st_normalizedForOauthSignatureString =
        url'.st_normalizedForOauthSignatureString ∧ ps.Perm ps' := by
  have hperm : ∀ qs : List (String × String),
      (parametersSortedByKey (qs.map encodedParameter)).Perm (qs.map encodedParameter) :=
    fun qs => List.mergeSort_perm _ _
  rw [signatureBaseString_eq, signatureBaseString_eq, joinBase_eq_iff,
    joinPairs_encoded_eq_iff (fun p => mem_parametersSortedByKey)
      fun p => mem_parametersSortedByKey]
  refine and_congr_right' (and_congr_right' ⟨fun h => ?_, fun h => ?_⟩)
  · have hencoded : (ps.map encodedParameter).Perm (ps'.map encodedParameter) := by
      refine (hperm ps).symm.trans ?_
      rw [h]
      exact hperm ps'
    exact (List.map_perm_map_iff encodedParameter_injective).1 hencoded
  · have hnodup : ((parametersSortedByKey (ps.map encodedParameter)).map Prod.fst).Nodup :=
      ((hperm ps).map Prod.fst).nodup_iff.2 (nodup_encodedNames hnames)
    exact eq_of_sortedByKey
      ((hperm ps).trans ((h.map encodedParameter).trans (hperm ps').symm)) hnodup
      (pairwise_parametersSortedByKey _) (pairwise_parametersSortedByKey _)

/-- The URL of a request for friends. -/
def friendsURL : RequestURL where
  scheme := "https"
  host := "api.twitter.com"
  percentEncodedPath := "/1.1/friends/ids.json"
  path := "/1.1/friends/ids.json"

/-- A port makes no difference to the signature. -/
theorem signatureBaseString_swap :
    signatureBaseString .get friendsURL [("cursor", "-1"), ("count", "5000")] =
      signatureBaseString .get { friendsURL with port := some 444 }
        [("count", "5000"), ("cursor", "-1")] :=
  (signatureBaseString_eq_iff (by decide)).2 ⟨rfl, rfl, .swap _ _ _⟩

/-- The key of `oauthSignatureWithHTTPMethod:url:parameters:consumerSecret:tokenSecret:`. -/
def encodedSigningKey (consumerSecret : String) (tokenSecret : Option String) : String :=
  st_urlEncodedString consumerSecret ++ "&" ++ ((tokenSecret.map st_urlEncodedString).getD "")

/-! ## The sign-in -/

/-- What is signed of a request of the sign-in. -/
structure SignInRequest where
  httpMethod : HTTPMethod
  url : RequestURL
  httpBody : String := ""

/-- A component of a query, split at its first `=`. -/
def queryItem (component : String) : String × Option String :=
  (String.ofList (component.toList.takeWhile (· ≠ '=')),
    (component.toList.dropWhile (· ≠ '=')).head?.map fun _ =>
      String.ofList (component.toList.dropWhile (· ≠ '=')).tail)

/-- The `queryItems` of components whose `query` is set to a text. The setter encodes the
text and the items are decoded, so that they have it as it is, with its own escapes. -/
def queryItemsOf (query : String) : List (String × Option String) :=
  (componentsSeparatedBy '&' query).map queryItem

/-- `allParams[item.name] = item.value`, in both loops. -/
def addQueryItem (allParams : StringDictionary) (item : String × Option String) :
    StringDictionary :=
  if item.1 = "" then allParams else allParams.insert item.1 (item.2.getD "")

/-- The key of `signatureForRequest:authorizationParameters:`. -/
def signingKey (consumerSecret : String) (tokenSecret : Option String) : String :=
  consumerSecret ++ "&" ++ tokenSecret.getD ""

namespace SignInRequest

/-- `allParams` -/
def allParams (request : SignInRequest) (authorizationParameters : StringDictionary) :
    StringDictionary :=
  let getParams := request.url.queryItems.foldl addQueryItem authorizationParameters
  let allParams :=
    if request.httpMethod = .post ∧ 0 < request.httpBody.length then
      (queryItemsOf request.httpBody).foldl addQueryItem getParams
    else getParams
  allParams.erase "oauth_signature"

variable (L : CountryLocale)

/-- The names in the order of the locale, with their values. -/
def sortedParams (allParams : StringDictionary) : List (String × String) :=
  ((L.allKeys allParams).mergeSort L.compare).map fun paramName =>
    (paramName, (allParams.lookup paramName).getD "")

/-- The base string of `signatureForRequest:authorizationParameters:`. -/
def signedText (request : SignInRequest) (authorizationParameters : StringDictionary) : String :=
  joinBase request.httpMethod request.url.urlWithoutQueryParameters (joinPairs
    ((sortedParams L (request.allParams authorizationParameters)).map encodedParameter))

/-- `authorizationParametersForRequest:callbackURL:`, where `sign` takes a key and a text. -/
def authorizationParametersForRequest (sign : String → String → String)
    (consumerKey consumerSecret timestamp nonce : String) (oauth : FCBasicOAuthConsumer)
    (callbackURL : Option String) (request : SignInRequest) : StringDictionary :=
  let authorizationParams : StringDictionary :=
    setAll Prod.fst Prod.snd [("oauth_consumer_key", consumerKey),
      ("oauth_signature_method", "HMAC-SHA1"), ("oauth_timestamp", timestamp),
      ("oauth_nonce", nonce), ("oauth_version", "1.0")]
  let authorizationParams := oauth.token.elim authorizationParams
    (authorizationParams.insert "oauth_token")
  let authorizationParams := callbackURL.elim authorizationParams
    (authorizationParams.insert "oauth_callback")
  authorizationParams.insert "oauth_signature"
    (sign (signingKey consumerSecret oauth.tokenSecret) (signedText L request authorizationParams))

variable {L}

theorem map_fst_sortedParams (allParams : StringDictionary) :
    (sortedParams L allParams).map Prod.fst = (L.allKeys allParams).mergeSort L.compare := by
  rw [sortedParams, List.map_map]
  exact List.map_id _

theorem perm_names (allParams : StringDictionary) :
    ((sortedParams L allParams).map Prod.fst).Perm allParams.keys := by
  rw [map_fst_sortedParams]
  exact (List.mergeSort_perm _ _).trans (L.allKeys_perm allParams)

theorem nodup_names (allParams : StringDictionary) :
    ((sortedParams L allParams).map Prod.fst).Nodup :=
  (perm_names allParams).nodup_iff.2 allParams.keys_nodup

/-- A dictionary has the pairs that are signed. -/
theorem mem_sortedParams {allParams : StringDictionary} {name value : String} :
    (name, value) ∈ sortedParams L allParams ↔ allParams.lookup name = some value := by
  have hmem : name ∈ (L.allKeys allParams).mergeSort L.compare ↔ name ∈ allParams := by
    rw [← map_fst_sortedParams, (perm_names allParams).mem_iff, AList.mem_keys]
  constructor
  · intro h
    obtain ⟨name', hname', heq⟩ := List.mem_map.1 h
    obtain ⟨rfl, rfl⟩ := Prod.mk.inj heq
    obtain ⟨value, hvalue⟩ := Option.isSome_iff_exists.1 (AList.lookup_isSome.2 (hmem.1 hname'))
    rw [hvalue, Option.getD_some]
  · intro h
    refine List.mem_map.2 ⟨name, hmem.2 (AList.lookup_isSome.1 (by simp [h])), ?_⟩
    rw [h]
    rfl

/-! ## What is signed -/

/-- Dictionaries with the same values, whose names are enumerated alike once sorted. -/
theorem sortedParams_eq_iff {allParams allParams' : StringDictionary} :
    sortedParams L allParams = sortedParams L allParams' ↔
      (L.allKeys allParams).mergeSort L.compare = (L.allKeys allParams').mergeSort L.compare ∧
        ∀ name, allParams.lookup name = allParams'.lookup name := by
  constructor
  · intro h
    refine ⟨?_, fun name => Option.ext fun value => ?_⟩
    · rw [← map_fst_sortedParams, ← map_fst_sortedParams, h]
    · rw [← mem_sortedParams (L := L), ← mem_sortedParams (L := L), h]
  · rintro ⟨hnames, hlookup⟩
    rw [sortedParams, sortedParams, hnames]
    exact List.map_congr_left fun name _ => by rw [hlookup]

variable {request request' : SignInRequest}
  {authorizationParameters authorizationParameters' : StringDictionary}

theorem joinPairs_sortedParams_eq_iff {ps : List (String × String)} {allParams : StringDictionary}
    (h : ∀ p ∈ ps, ∃ q, p = encodedParameter q) :
    joinPairs ((sortedParams L allParams).map encodedParameter) = joinPairs ps ↔
      (sortedParams L allParams).map encodedParameter = ps := by
  refine joinPairs_encoded_eq_iff (fun p hp => ?_) h
  obtain ⟨q, -, rfl⟩ := List.mem_map.1 hp
  exact ⟨q, rfl⟩

/-- What is signed tells the method, the URL and the values of all parameters. -/
theorem signedText_eq_iff :
    signedText L request authorizationParameters =
        signedText L request' authorizationParameters' ↔
      request.httpMethod = request'.httpMethod ∧
        request.url.urlWithoutQueryParameters = request'.url.urlWithoutQueryParameters ∧
        (L.allKeys (request.allParams authorizationParameters)).mergeSort L.compare =
          (L.allKeys (request'.allParams authorizationParameters')).mergeSort L.compare ∧
        ∀ name, (request.allParams authorizationParameters).lookup name =
          (request'.allParams authorizationParameters').lookup name := by
  rw [signedText, signedText, joinBase_eq_iff, joinPairs_sortedParams_eq_iff,
    (List.map_injective_iff.2 encodedParameter_injective).eq_iff, sortedParams_eq_iff]
  intro p hp
  obtain ⟨q, -, rfl⟩ := List.mem_map.1 hp
  exact ⟨q, rfl⟩

/-- The two implementations sign the same text of the same parameters, iff the locale sorts
their names as their encodings are sorted. -/
theorem signedText_eq_signatureBaseString_iff {httpMethod : HTTPMethod} {url : RequestURL}
    {ps : List (String × String)} :
    signedText L request authorizationParameters = signatureBaseString httpMethod url ps ↔
      request.httpMethod = httpMethod ∧ request.url.urlWithoutQueryParameters =
          url.st_normalizedForOauthSignatureString ∧
        ps.Perm (sortedParams L (request.allParams authorizationParameters)) ∧
        ((L.allKeys (request.allParams authorizationParameters)).mergeSort L.compare).Pairwise
          fun name name' => rawURLEncodedString name ≤ rawURLEncodedString name' := by
  rw [signedText, signatureBaseString_eq, joinBase_eq_iff,
    joinPairs_sortedParams_eq_iff fun p => mem_parametersSortedByKey,
    eq_parametersSortedByKey_iff (nodup_names _), List.pairwise_map, ← map_fst_sortedParams,
    List.pairwise_map]
  rfl

/-! ## The signature -/

theorem erase_insert_self {d : StringDictionary} {name value : String} :
    (d.insert name value).erase name = d.erase name := by
  refine AList.ext ?_
  change List.kerase name (d.insert name value).entries = List.kerase name d.entries
  rw [AList.entries_insert]
  exact List.kerase_cons_eq rfl

theorem erase_insert_of_ne {d : StringDictionary} {name name' value : String}
    (h : name ≠ name') :
    (d.insert name' value).erase name = (d.erase name).insert name' value := by
  refine AList.ext ?_
  change List.kerase name (d.insert name' value).entries = _
  rw [AList.entries_insert, AList.entries_insert]
  refine (List.kerase_cons_ne h).trans (congrArg _ ?_)
  exact List.kerase_kerase

theorem erase_addQueryItem {d d' : StringDictionary} {name : String}
    (h : d.erase name = d'.erase name) (item : String × Option String) :
    (addQueryItem d item).erase name = (addQueryItem d' item).erase name := by
  unfold addQueryItem
  split
  · exact h
  · rcases eq_or_ne name item.1 with rfl | hne
    · rw [erase_insert_self, erase_insert_self, h]
    · rw [erase_insert_of_ne hne, erase_insert_of_ne hne, h]

theorem erase_foldl_addQueryItem {d d' : StringDictionary} {name : String}
    (h : d.erase name = d'.erase name) (items : List (String × Option String)) :
    (items.foldl addQueryItem d).erase name = (items.foldl addQueryItem d').erase name := by
  induction items generalizing d d' with
  | nil => exact h
  | cons item items ih => exact ih (erase_addQueryItem h item)

/-- A signature among the parameters is not signed. -/
theorem allParams_insert_signature (request : SignInRequest) (d : StringDictionary)
    (signature : String) :
    request.allParams (d.insert "oauth_signature" signature) = request.allParams d := by
  have hd : (d.insert "oauth_signature" signature).erase "oauth_signature" =
      d.erase "oauth_signature" := erase_insert_self
  unfold allParams
  split
  · simp only [← List.foldl_append]
    exact erase_foldl_addQueryItem hd _
  · exact erase_foldl_addQueryItem hd _

/-- A request is sent with the signature of the parameters that it is sent with. -/
theorem lookup_oauth_signature (sign : String → String → String)
    (consumerKey consumerSecret timestamp nonce : String) (oauth : FCBasicOAuthConsumer)
    (callbackURL : Option String) :
    (authorizationParametersForRequest L sign consumerKey consumerSecret timestamp nonce oauth
        callbackURL request).lookup "oauth_signature" =
      some (sign (signingKey consumerSecret oauth.tokenSecret) (signedText L request
        (authorizationParametersForRequest L sign consumerKey consumerSecret timestamp nonce oauth
          callbackURL request))) := by
  unfold authorizationParametersForRequest
  simp only [AList.lookup_insert, signedText, allParams_insert_signature]

/-! ## Two signatures -/

/-- The keys of the two implementations agree iff the secrets need no encoding. -/
theorem signingKey_eq_encodedSigningKey_iff {consumerSecret : String}
    {tokenSecret : Option String} :
    signingKey consumerSecret tokenSecret = encodedSigningKey consumerSecret tokenSecret ↔
      (∀ c ∈ consumerSecret.toList, isUnreserved c = true) ∧
        ∀ c ∈ (tokenSecret.getD "").toList, isUnreserved c = true := by
  have htoken : (tokenSecret.map st_urlEncodedString).getD "" =
      st_urlEncodedString (tokenSecret.getD "") := by
    cases tokenSecret <;> rfl
  have hlength : ∀ s, s.toList.length ≤ (st_urlEncodedString s).toList.length := by
    intro s
    exact le_length_addingPercentEncoding s
  have hunreserved : ∀ s, (st_urlEncodedString s).toList.length = s.toList.length →
      ∀ c ∈ s.toList, isUnreserved c = true := by
    intro s hs
    rw [← unescapedCharacters_eq]
    exact forall_allowed_of_length hs
  have hself : ∀ s : String, (∀ c ∈ s.toList, isUnreserved c = true) →
      st_urlEncodedString s = s := by
    intro s hs
    rw [← unescapedCharacters_eq] at hs
    exact addingPercentEncoding_of_allowed hs
  rw [signingKey, encodedSigningKey, htoken]
  constructor
  · intro h
    have hsum := congrArg (fun s : String => s.toList.length) h
    simp only [String.toList_append, List.length_append] at hsum
    have hconsumer := hlength consumerSecret
    have htokenSecret := hlength (tokenSecret.getD "")
    exact ⟨hunreserved _ (by omega), hunreserved _ (by omega)⟩
  · rintro ⟨hconsumer, htokenSecret⟩
    rw [hself _ hconsumer, hself _ htokenSecret]

/-- The two implementations sign the same text with the same key, iff the request and its
parameters are the same, the locale sorts the names as their encodings are sorted, and the
secrets need no encoding. -/
theorem signsAlike_iff {httpMethod : HTTPMethod} {url : RequestURL} {ps : List (String × String)}
    {consumerSecret : String} {tokenSecret : Option String} :
    (signedText L request authorizationParameters = signatureBaseString httpMethod url ps ∧
        signingKey consumerSecret tokenSecret = encodedSigningKey consumerSecret tokenSecret) ↔
      (request.httpMethod = httpMethod ∧ request.url.urlWithoutQueryParameters =
          url.st_normalizedForOauthSignatureString ∧
        ps.Perm (sortedParams L (request.allParams authorizationParameters)) ∧
        ((L.allKeys (request.allParams authorizationParameters)).mergeSort L.compare).Pairwise
          fun name name' => rawURLEncodedString name ≤ rawURLEncodedString name') ∧
      (∀ c ∈ consumerSecret.toList, isUnreserved c = true) ∧
        ∀ c ∈ (tokenSecret.getD "").toList, isUnreserved c = true :=
  and_congr signedText_eq_signatureBaseString_iff signingKey_eq_encodedSigningKey_iff

end SignInRequest

end ConfFriends.Pods
