import Mathlib.Algebra.Order.BigOperators.Group.List
import ConfFriends.Pods.OAuthSignature
import ConfFriends.UsersView.Country

/-!
# Signed requests as they are received

A request of the sign-in is sent with its parameters in three places : those of OAuth and the
signature in the header, the query items in the URL, and the form fields in the body. What
the receiver does with them is our own statement. It decodes all three, takes the signature
out, and forms the base string of the rest.

The header and the body are read back as they were (`headerParameters_authorizationHeader`,
`bodyParameters_httpBody`). The text that was signed has the fields of the body with their
escapes, since `signatureForRequest:authorizationParameters:` sets the encoded body as a query
and reads its items. It is the base string of the receiver iff no field needs an escape and
the locale sorts the names as their encodings are sorted (`signature_verifies_iff`).
-/

set_option linter.unusedSectionVars false

namespace ConfFriends.Pods

/-! ## Requests as they are sent -/

section Sent

variable (L : CountryLocale)

/-- The entries of a dictionary, in the order of its enumeration. -/
def enumerated (d : StringDictionary) : List (String × String) :=
  (L.allKeys d).map fun name => (name, (d.lookup name).getD "")

/-- `setPOSTParameters:forRequest:` -/
def SignInRequest.setPOSTParameters (dictionary : StringDictionary) (url : RequestURL) :
    SignInRequest where
  httpMethod := .post
  url := url
  httpBody := joinPairs ((enumerated L dictionary).map encodedParameter)

/-- A parameter of the header. -/
def encodedParamPair (p : String × String) : String :=
  rawURLEncodedString p.1 ++ "=\"" ++ rawURLEncodedString p.2 ++ "\""

/-- The header that `signRequest:withOAuthCallbackURL:` sets. -/
def authorizationHeader (authorizationParams : StringDictionary) : String :=
  "OAuth " ++ ", ".intercalate ((enumerated L authorizationParams).map encodedParamPair)

end Sent

/-! ## The receiver -/

/-- Both sides of a pair, decoded. -/
def decodedPair : List String → Option (String × String)
  | [name, value] => do
    let name ← removingPercentEncoding name
    let value ← removingPercentEncoding value
    return (name, value)
  | _ => none

/-- The header without its scheme, blanks and quotes. -/
def bareHeader (header : String) : String :=
  String.ofList ((header.toList.drop 5).filter fun c => c ≠ ' ' && c ≠ '"')

def headerParameters (header : String) : Option (List (String × String)) :=
  ((componentsSeparatedBy ',' (bareHeader header)).map (componentsSeparatedBy '=')).mapM
    decodedPair

def bodyParameters (body : String) : Option (List (String × String)) :=
  if body = "" then some [] else (pairComponents body).mapM decodedPair

/-- The parameter of a query item, with an empty text for a missing value. -/
def itemParameter (item : String × Option String) : String × String :=
  (item.1, item.2.getD "")

/-- All parameters of a request, the signature among them. -/
def receivedParameters (request : SignInRequest) (header : String) :
    Option (List (String × String)) := do
  let inHeader ← headerParameters header
  let inBody ← bodyParameters request.httpBody
  return inHeader ++ request.url.queryItems.map itemParameter ++ inBody

def receivedSignature (request : SignInRequest) (header : String) : Option String :=
  (receivedParameters request header).bind (List.lookup "oauth_signature")

/-- The base string of all parameters but the signature. -/
def receivedBase (request : SignInRequest) (header : String) : Option String :=
  (receivedParameters request header).map fun ps =>
    signatureBaseString request.httpMethod request.url (ps.filter (·.1 ≠ "oauth_signature"))

/-! ## Reading back -/

theorem decodedPair_encodedParameter (p : String × String) :
    decodedPair [(encodedParameter p).1, (encodedParameter p).2] = some p := by
  have hdecode : ∀ s, removingPercentEncoding (rawURLEncodedString s) = some s := by
    intro s
    rw [rawURLEncodedString, urlEncodingAllowedCharacters_eq]
    exact removingPercentEncoding_addingPercentEncoding plainASCII_isUnreserved s
  simp only [decodedPair, encodedParameter, hdecode]
  rfl

theorem mapM_decodedPair (ps : List (String × String)) :
    ((ps.map encodedParameter).map fun p => [p.1, p.2]).mapM decodedPair = some ps := by
  induction ps with
  | nil => rfl
  | cons p ps ih =>
    rw [List.map_cons, List.map_cons, List.mapM_cons, decodedPair_encodedParameter, ih]
    rfl

theorem undelimited_encodedParameters {ps : List (String × String)} :
    ∀ p ∈ ps.map encodedParameter, Undelimited p.1 ∧ Undelimited p.2 := by
  intro p hp
  obtain ⟨q, -, rfl⟩ := List.mem_map.1 hp
  exact ⟨undelimited_rawURLEncodedString q.1, undelimited_rawURLEncodedString q.2⟩

theorem filter_intercalate {α : Type*} (keep : α → Bool) (separator : List α)
    (ls : List (List α)) : (separator.intercalate ls).filter keep =
      (separator.filter keep).intercalate (ls.map (List.filter keep)) := by
  induction ls with
  | nil => rfl
  | cons l ls ih =>
    cases ls with
    | nil => simp
    | cons l' ls =>
      rw [List.intercalate_cons_cons, List.filter_append, List.filter_append, ih]
      simp only [List.map_cons, List.intercalate_cons_cons]

/-- An encoded text has no blanks, quotes or commas. -/
theorem not_mem_rawURLEncodedString {c : Char} (h : c = ' ' ∨ c = '"' ∨ c = ',') (s : String) :
    c ∉ (rawURLEncodedString s).toList := by
  rcases h with rfl | rfl | rfl
  all_goals exact not_mem_addingPercentEncoding (by decide) (by decide) (by decide) s

theorem bareHeader_authorizationHeader {L : CountryLocale} (d : StringDictionary) :
    bareHeader (authorizationHeader L d) = componentsJoinedBy ','
      (((enumerated L d).map encodedParameter).map joinPair) := by
  have hkeep : ∀ s, (rawURLEncodedString s).toList.filter (fun c => c ≠ ' ' && c ≠ '"') =
      (rawURLEncodedString s).toList := by
    intro s
    refine List.filter_eq_self.2 fun c hc => ?_
    have hblank : c ≠ ' ' := by
      rintro rfl
      exact not_mem_rawURLEncodedString (.inl rfl) s hc
    have hquote : c ≠ '"' := by
      rintro rfl
      exact not_mem_rawURLEncodedString (.inr (.inl rfl)) s hc
    simp [hblank, hquote]
  have hpair : ∀ p, (encodedParamPair p).toList.filter (fun c => c ≠ ' ' && c ≠ '"') =
      (joinPair (encodedParameter p)).toList := by
    intro p
    rw [encodedParamPair, toList_joinPair]
    simp only [String.toList_append, List.filter_append, hkeep, encodedParameter]
    simp
  have hpairs : (((enumerated L d).map encodedParamPair).map String.toList).map
      (List.filter fun c => c ≠ ' ' && c ≠ '"') =
        (((enumerated L d).map encodedParameter).map joinPair).map String.toList := by
    simp only [List.map_map]
    refine List.map_congr_left fun p _ => ?_
    simp only [Function.comp_apply, hpair]
  have hdrop : ∀ l : List Char, ("OAuth ".toList ++ l).drop 5 = ' ' :: l := fun l => rfl
  have hseparator : ", ".toList.filter (fun c => c ≠ ' ' && c ≠ '"') = [','] := by decide
  rw [bareHeader, authorizationHeader, String.toList_append, hdrop, String.toList_intercalate,
    List.filter_cons_of_neg (by decide), filter_intercalate, hseparator, hpairs]
  rfl

/-- The header is read as the parameters that it was made of. -/
theorem headerParameters_authorizationHeader {L : CountryLocale} {d : StringDictionary}
    (hd : enumerated L d ≠ []) :
    headerParameters (authorizationHeader L d) = some (enumerated L d) := by
  have hcommas : ∀ s ∈ ((enumerated L d).map encodedParameter).map joinPair, ',' ∉ s.toList := by
    intro s hs
    rw [List.map_map] at hs
    obtain ⟨p, -, rfl⟩ := List.mem_map.1 hs
    have hcomma := not_mem_rawURLEncodedString (.inr (.inr rfl))
    simp [toList_joinPair, encodedParameter, hcomma]
  have hpairs : (((enumerated L d).map encodedParameter).map joinPair).map
      (componentsSeparatedBy '=') = ((enumerated L d).map encodedParameter).map
        fun p => [p.1, p.2] := by
    rw [List.map_map]
    refine List.map_congr_left fun p hp => ?_
    obtain ⟨h₁, h₂⟩ := undelimited_encodedParameters p hp
    exact componentsSeparatedBy_joinPair h₁ h₂
  rw [headerParameters, bareHeader_authorizationHeader,
    componentsSeparatedBy_joinedBy (by simpa using hd) hcommas, hpairs, mapM_decodedPair]

theorem joinPairs_encoded_eq_empty_iff {ps : List (String × String)} :
    joinPairs (ps.map encodedParameter) = "" ↔ ps = [] := by
  have h : joinPairs (ps.map encodedParameter) = joinPairs [] ↔ ps.map encodedParameter = [] := by
    refine joinPairs_encoded_eq_iff (fun p hp => ?_) (by simp)
    obtain ⟨q, -, rfl⟩ := List.mem_map.1 hp
    exact ⟨q, rfl⟩
  rw [List.map_eq_nil_iff] at h
  exact h

/-- The body is read as the fields that it was made of. -/
theorem bodyParameters_httpBody {L : CountryLocale} (d : StringDictionary) (url : RequestURL) :
    bodyParameters (SignInRequest.setPOSTParameters L d url).httpBody = some (enumerated L d) := by
  rw [bodyParameters, SignInRequest.setPOSTParameters]
  split
  · next h => rw [joinPairs_encoded_eq_empty_iff.1 h]
  · next h =>
    have hne : (enumerated L d).map encodedParameter ≠ [] := by
      rw [ne_eq, List.map_eq_nil_iff]
      exact fun hd => h (joinPairs_encoded_eq_empty_iff.2 hd)
    rw [pairComponents_joinPairs hne undelimited_encodedParameters, mapM_decodedPair]

/-! ## What was signed -/

theorem queryItem_joinPair {p : String × String} (h : Undelimited p.1) :
    queryItem (joinPair p) = (p.1, some p.2) := by
  have hname : ∀ c ∈ p.1.toList, (decide (c ≠ '=')) = true := by
    intro c hc
    refine decide_eq_true fun heq => h.2 ?_
    rwa [← heq]
  rw [queryItem, toList_joinPair, List.takeWhile_append_of_pos hname,
    List.dropWhile_append_of_pos hname]
  simp

/-- The items of the body have the fields with their escapes. -/
theorem queryItemsOf_joinPairs {ps : List (String × String)} (hne : ps ≠ []) :
    queryItemsOf (joinPairs (ps.map encodedParameter)) =
      (ps.map encodedParameter).map fun p => (p.1, some p.2) := by
  rw [queryItemsOf, componentsSeparatedBy_joinPairs (by simpa using hne)
    undelimited_encodedParameters, List.map_map]
  exact List.map_congr_left fun p hp => queryItem_joinPair (undelimited_encodedParameters p hp).1

/-- The items of the URL and the body, as they are signed. -/
def signedItems (L : CountryLocale) (fields : StringDictionary) (url : RequestURL) :
    List (String × Option String) :=
  url.queryItems ++ ((enumerated L fields).map encodedParameter).map fun p => (p.1, some p.2)

theorem allParams_setPOSTParameters {L : CountryLocale} (fields d : StringDictionary)
    (url : RequestURL) : (SignInRequest.setPOSTParameters L fields url).allParams d =
      ((signedItems L fields url).foldl addQueryItem d).erase "oauth_signature" := by
  rw [SignInRequest.allParams, SignInRequest.setPOSTParameters, signedItems, List.foldl_append]
  rcases eq_or_ne (enumerated L fields) [] with hnil | hne
  · rw [hnil]
    rfl
  · have hbody : 0 < (joinPairs ((enumerated L fields).map encodedParameter)).length := by
      rw [Nat.pos_iff_ne_zero, ne_eq, String.length_eq_zero_iff, joinPairs_encoded_eq_empty_iff]
      exact hne
    simp only [hbody, and_self, if_true, queryItemsOf_joinPairs hne]

/-- Items with new names are added to a dictionary. -/
theorem lookup_foldl_addQueryItem {items : List (String × Option String)} {d : StringDictionary}
    {name value : String} (hnodup : (items.map Prod.fst).Nodup)
    (hnew : ∀ item ∈ items, item.1 ≠ "" ∧ item.1 ∉ d) :
    (items.foldl addQueryItem d).lookup name = some value ↔
      d.lookup name = some value ∨ (name, value) ∈ items.map itemParameter := by
  induction items generalizing d with
  | nil => simp
  | cons item items ih =>
    obtain ⟨hitem, hitems⟩ := List.forall_mem_cons.1 hnew
    obtain ⟨hfirst, hrest⟩ := List.nodup_cons.1 hnodup
    have hnew' : ∀ item' ∈ items, item'.1 ≠ "" ∧ item'.1 ∉ d.insert item.1 (item.2.getD "") := by
      intro item' hitem'
      refine ⟨(hitems item' hitem').1, fun hmem => ?_⟩
      rcases (AList.mem_insert d).1 hmem with heq | hmem
      · exact hfirst (heq ▸ List.mem_map_of_mem hitem')
      · exact (hitems item' hitem').2 hmem
    rw [List.foldl_cons, addQueryItem, if_neg hitem.1, ih hrest hnew', List.map_cons,
      List.mem_cons, itemParameter, Prod.mk.injEq, ← or_assoc]
    refine or_congr_left ?_
    rcases eq_or_ne name item.1 with rfl | hne
    · have hnone : d.lookup item.1 = none := AList.lookup_eq_none.2 hitem.2
      simp [AList.lookup_insert, hnone, eq_comm]
    · simp [AList.lookup_insert_ne hne, hne]

/-! ## What the receiver forms -/

/-- The names that a request is sent with are distinct, and in the URL and the body not
empty. -/
structure NamedApart (authorizationParams : StringDictionary) (url : RequestURL)
    (fields : StringDictionary) : Prop where
  nodup : (authorizationParams.keys ++ url.queryItems.map Prod.fst ++
    fields.keys.map rawURLEncodedString).Nodup
  nonempty : "" ∉ url.queryItems.map Prod.fst ++ fields.keys.map rawURLEncodedString

/-- Both sides of a parameter are unreserved. -/
def UnreservedParameter (p : String × String) : Prop :=
  (∀ c ∈ p.1.toList, isUnreserved c = true) ∧ ∀ c ∈ p.2.toList, isUnreserved c = true

instance (p : String × String) : Decidable (UnreservedParameter p) :=
  inferInstanceAs (Decidable (_ ∧ _))

theorem rawURLEncodedString_eq_self {s : String} (h : ∀ c ∈ s.toList, isUnreserved c = true) :
    rawURLEncodedString s = s := by
  rw [← urlEncodingAllowedCharacters_eq] at h
  exact addingPercentEncoding_of_allowed h

/-- Parameters are their encodings, in any order, iff they need none. -/
theorem perm_map_encodedParameter_iff {ps : List (String × String)} :
    ps.Perm (ps.map encodedParameter) ↔ ∀ p ∈ ps, UnreservedParameter p := by
  have hlength : ∀ s, s.toList.length ≤ (rawURLEncodedString s).toList.length :=
    fun s => le_length_addingPercentEncoding s
  have hunreserved : ∀ s : String, (rawURLEncodedString s).toList.length = s.toList.length →
      ∀ c ∈ s.toList, isUnreserved c = true := by
    rw [← urlEncodingAllowedCharacters_eq]
    exact fun s => forall_allowed_of_length
  constructor
  · intro hperm
    let size : String × String → ℕ := fun p => p.1.toList.length + p.2.toList.length
    have hle : ∀ p : String × String, size p ≤ size (encodedParameter p) :=
      fun p => Nat.add_le_add (hlength p.1) (hlength p.2)
    have hsum : (ps.map size).sum = (ps.map fun p => size (encodedParameter p)).sum := by
      have hsizes := (hperm.map size).sum_eq
      rwa [List.map_map] at hsizes
    intro p hp
    have heq : size (encodedParameter p) ≤ size p := by
      by_contra hlt
      exact hsum.not_lt (List.sum_lt_sum _ _ (fun q _ => hle q) ⟨p, hp, not_le.1 hlt⟩)
    have h₁ := hlength p.1
    have h₂ := hlength p.2
    simp only [size, encodedParameter] at heq
    exact ⟨hunreserved p.1 (by omega), hunreserved p.2 (by omega)⟩
  · intro h
    have hself : ps.map encodedParameter = ps := by
      refine (List.map_congr_left fun p hp => ?_).trans (List.map_id ps)
      obtain ⟨hname, hvalue⟩ := h p hp
      exact Prod.ext (rawURLEncodedString_eq_self hname) (rawURLEncodedString_eq_self hvalue)
    rw [hself]

section Received

variable {L : CountryLocale} {authorizationParams fields : StringDictionary} {url : RequestURL}

theorem perm_enumerated (d : StringDictionary) :
    (SignInRequest.sortedParams L d).Perm (enumerated L d) :=
  (List.mergeSort_perm _ _).map _

theorem mem_enumerated {d : StringDictionary} {name value : String} :
    (name, value) ∈ enumerated L d ↔ d.lookup name = some value :=
  (perm_enumerated d).mem_iff.symm.trans SignInRequest.mem_sortedParams

theorem perm_enumerated_names (d : StringDictionary) :
    ((enumerated L d).map Prod.fst).Perm d.keys :=
  ((perm_enumerated d).map Prod.fst).symm.trans (SignInRequest.perm_names d)

theorem map_itemParameter_signedItems : (signedItems L fields url).map itemParameter =
    url.queryItems.map itemParameter ++ (enumerated L fields).map encodedParameter := by
  rw [signedItems, List.map_append]
  simp [itemParameter, Function.comp_def]

theorem names_signedItems : ((signedItems L fields url).map Prod.fst).Perm
    (url.queryItems.map Prod.fst ++ fields.keys.map rawURLEncodedString) := by
  have hfields := (perm_enumerated_names (L := L) fields).map rawURLEncodedString
  rw [List.map_map] at hfields
  rw [signedItems, List.map_append, List.map_map, List.map_map]
  exact hfields.append_left _

theorem NamedApart.nodup_signed (h : NamedApart authorizationParams url fields) :
    ((enumerated L authorizationParams).map Prod.fst ++
    (signedItems L fields url).map Prod.fst).Nodup := by
  have hnodup := h.nodup
  rw [List.append_assoc] at hnodup
  exact ((perm_enumerated_names _).append names_signedItems).nodup_iff.2 hnodup

theorem NamedApart.not_mem_of_signed (h : NamedApart authorizationParams url fields)
    {item : String × Option String} (hitem : item ∈ signedItems L fields url) :
    item.1 ≠ "" ∧ item.1 ∉ authorizationParams := by
  have hname := List.mem_map_of_mem (f := Prod.fst) hitem
  refine ⟨fun hempty => h.nonempty ?_, fun hmem => ?_⟩
  · rw [hempty] at hname
    exact names_signedItems.mem_iff.1 hname
  · have hdisjoint := List.disjoint_of_nodup_append (h.nodup_signed (L := L))
    exact hdisjoint ((perm_enumerated_names _).mem_iff.2 (AList.mem_keys.1 hmem)) hname

/-- What is signed is what is sent but the signature, where the fields have their escapes. -/
theorem NamedApart.perm_signed (h : NamedApart authorizationParams url fields) :
    ((enumerated L authorizationParams ++ (url.queryItems.map itemParameter ++
        (enumerated L fields).map encodedParameter)).filter (·.1 ≠ "oauth_signature")).Perm
      (SignInRequest.sortedParams L
        ((SignInRequest.setPOSTParameters L fields url).allParams authorizationParams)) := by
  rw [← map_itemParameter_signedItems]
  have hnames : ((enumerated L authorizationParams ++
      (signedItems L fields url).map itemParameter).map Prod.fst).Nodup := by
    rw [List.map_append, List.map_map]
    exact h.nodup_signed
  have hitems := (List.nodup_append.1 (h.nodup_signed (L := L))).2.1
  refine (List.perm_ext_iff_of_nodup ((List.Nodup.of_map _ hnames).filter _)
    (List.Nodup.of_map _ (SignInRequest.nodup_names _))).2 fun ⟨name, value⟩ => ?_
  rw [SignInRequest.mem_sortedParams, allParams_setPOSTParameters, List.mem_filter,
    List.mem_append, mem_enumerated]
  rcases eq_or_ne name "oauth_signature" with rfl | hne
  · simp [AList.lookup_erase]
  · rw [AList.lookup_erase_ne hne,
      lookup_foldl_addQueryItem hitems fun item => h.not_mem_of_signed]
    simp [hne]

/-- The parameters that are received are those that were signed, iff no field needs an
escape. -/
theorem NamedApart.perm_received_iff (h : NamedApart authorizationParams url fields)
    (hsignature : "oauth_signature" ∈ authorizationParams) :
    ((enumerated L authorizationParams ++ url.queryItems.map itemParameter ++
        enumerated L fields).filter (·.1 ≠ "oauth_signature")).Perm (SignInRequest.sortedParams L
      ((SignInRequest.setPOSTParameters L fields url).allParams authorizationParams)) ↔
      ∀ p ∈ enumerated L fields, UnreservedParameter p := by
  have hself : rawURLEncodedString "oauth_signature" = "oauth_signature" :=
    rawURLEncodedString_eq_self (by simp [isUnreserved])
  have hname : ∀ p ∈ enumerated L fields, rawURLEncodedString p.1 ≠ "oauth_signature" := by
    intro p hp heq
    have hitem : (rawURLEncodedString p.1, some (rawURLEncodedString p.2)) ∈
        signedItems L fields url := by
      refine List.mem_append_right _ (List.mem_map.2 ⟨encodedParameter p, ?_, rfl⟩)
      exact List.mem_map_of_mem hp
    have hnot := (h.not_mem_of_signed hitem).2
    rw [heq] at hnot
    exact hnot hsignature
  have hfields : (enumerated L fields).filter (·.1 ≠ "oauth_signature") = enumerated L fields := by
    refine List.filter_eq_self.2 fun p hp => decide_eq_true fun heq => hname p hp ?_
    rw [heq, hself]
  have hencoded : ((enumerated L fields).map encodedParameter).filter
      (·.1 ≠ "oauth_signature") = (enumerated L fields).map encodedParameter := by
    refine List.filter_eq_self.2 fun q hq => ?_
    obtain ⟨p, hp, rfl⟩ := List.mem_map.1 hq
    exact decide_eq_true (hname p hp)
  rw [← perm_map_encodedParameter_iff, ← h.perm_signed.congr_right, ← List.append_assoc]
  simp only [List.filter_append _ (enumerated L fields), hfields,
    List.filter_append _ ((enumerated L fields).map encodedParameter), hencoded,
    List.perm_append_left_iff]

theorem lookup_of_mem {ps : List (String × String)} {name value : String}
    (hnames : (ps.map Prod.fst).Nodup) (hmem : (name, value) ∈ ps) :
    ps.lookup name = some value := by
  induction ps with
  | nil => exact absurd hmem List.not_mem_nil
  | cons p ps ih =>
    obtain ⟨hfirst, hrest⟩ := List.nodup_cons.1 hnames
    rcases List.mem_cons.1 hmem with rfl | hmem
    · simp
    · have hne : name ≠ p.1 := by
        rintro rfl
        exact hfirst (List.mem_map.2 ⟨_, hmem, rfl⟩)
      rw [List.lookup_cons, beq_false_of_ne hne]
      exact ih hrest hmem

/-- The parameters of a signed request are received as they were. -/
theorem receivedParameters_eq (hparams : enumerated L authorizationParams ≠ []) :
    receivedParameters (SignInRequest.setPOSTParameters L fields url)
        (authorizationHeader L authorizationParams) =
      some (enumerated L authorizationParams ++ url.queryItems.map itemParameter ++
        enumerated L fields) := by
  rw [receivedParameters, headerParameters_authorizationHeader hparams, bodyParameters_httpBody]
  rfl

/-- A receiver finds the signature of the text that was signed. This text is its own base
string iff no field of the body needs an escape and the locale sorts the names as their
encodings are sorted. -/
theorem signature_verifies_iff {sign : String → String → String}
    {consumerKey consumerSecret timestamp nonce : String} {oauth : FCBasicOAuthConsumer}
    {callbackURL : Option String} {request : SignInRequest}
    (hrequest : request = SignInRequest.setPOSTParameters L fields url)
    (hparams : authorizationParams = request.authorizationParametersForRequest L sign consumerKey
      consumerSecret timestamp nonce oauth callbackURL)
    (hurl : url.Plain) (h : NamedApart authorizationParams url fields) :
    ∃ base, receivedBase request (authorizationHeader L authorizationParams) = some base ∧
      receivedSignature request (authorizationHeader L authorizationParams) =
        some (sign (signingKey consumerSecret oauth.tokenSecret)
          (request.signedText L authorizationParams)) ∧
      (base = request.signedText L authorizationParams ↔
        (∀ p ∈ enumerated L fields, UnreservedParameter p) ∧
          ((L.allKeys (request.allParams authorizationParams)).mergeSort L.compare).Pairwise
            fun name name' => rawURLEncodedString name ≤ rawURLEncodedString name') := by
  have hsignature : authorizationParams.lookup "oauth_signature" =
      some (sign (signingKey consumerSecret oauth.tokenSecret)
        (request.signedText L authorizationParams)) := by
    rw [hparams]
    exact SignInRequest.lookup_oauth_signature sign consumerKey consumerSecret timestamp nonce
      oauth callbackURL
  have hmem : ("oauth_signature", sign (signingKey consumerSecret oauth.tokenSecret)
      (request.signedText L authorizationParams)) ∈ enumerated L authorizationParams :=
    mem_enumerated.2 hsignature
  have hreceived : receivedParameters request (authorizationHeader L authorizationParams) =
      some (enumerated L authorizationParams ++ url.queryItems.map itemParameter ++
        enumerated L fields) := by
    rw [hrequest]
    exact receivedParameters_eq (List.ne_nil_of_mem hmem)
  have hnames : ((enumerated L authorizationParams).map Prod.fst).Nodup :=
    (List.nodup_append.1 (h.nodup_signed (L := L))).1
  rw [receivedBase, receivedSignature, hreceived]
  refine ⟨_, rfl, ?_, ?_⟩
  · rw [Option.bind_some, List.append_assoc, List.lookup_append,
      lookup_of_mem hnames hmem, Option.some_or]
  · have hin : "oauth_signature" ∈ authorizationParams :=
      AList.lookup_isSome.1 (by simp [hsignature])
    rw [eq_comm, SignInRequest.signedText_eq_signatureBaseString_iff,
      ← h.perm_received_iff (L := L) hin, hrequest]
    simp only [SignInRequest.setPOSTParameters, hurl.urlWithoutQueryParameters_eq, true_and]

end Received

/-! A request for an access token, with a reserved character in its verifier. -/

def accessTokenURL : RequestURL where
  scheme := "https"
  host := "api.twitter.com"
  percentEncodedPath := "/oauth/access_token"
  path := "/oauth/access_token"

def verifierFields : StringDictionary :=
  setAll Prod.fst Prod.snd [("oauth_verifier", "a+b")]

def accessTokenRequest : SignInRequest :=
  SignInRequest.setPOSTParameters UsersViewController.englishLocale verifierFields accessTokenURL

def accessTokenParams : StringDictionary :=
  accessTokenRequest.authorizationParametersForRequest UsersViewController.englishLocale (· ++ ·)
    "key" "secret" "1" "2" { token := some "token", tokenSecret := some "secret" } none

/-- What is signed is not what is received. -/
theorem receivedBase_accessTokenRequest :
    receivedBase accessTokenRequest
        (authorizationHeader UsersViewController.englishLocale accessTokenParams) ≠
      some (accessTokenRequest.signedText UsersViewController.englishLocale
        accessTokenParams) := by
  intro hbase
  have hnodup : (accessTokenParams.keys ++ accessTokenURL.queryItems.map Prod.fst ++
      verifierFields.keys.map rawURLEncodedString).Nodup := by
    decide
  have hrequest : accessTokenRequest = SignInRequest.setPOSTParameters
      UsersViewController.englishLocale verifierFields accessTokenURL := rfl
  have hparams : accessTokenParams = accessTokenRequest.authorizationParametersForRequest
      UsersViewController.englishLocale (· ++ ·) "key" "secret" "1" "2"
      { token := some "token", tokenSecret := some "secret" } none := rfl
  obtain ⟨base, hreceived, -, hiff⟩ := signature_verifies_iff hrequest hparams
    ⟨rfl, rfl, rfl, rfl⟩ ⟨hnodup, by decide⟩
  have hfields : enumerated UsersViewController.englishLocale verifierFields =
      [("oauth_verifier", "a+b")] := rfl
  -- the plus sign of the verifier needs an escape
  have hreserved := (hiff.1 (Option.some.inj (hreceived.symm.trans hbase))).1
  simp [hfields, UnreservedParameter, isUnreserved] at hreserved

end ConfFriends.Pods
