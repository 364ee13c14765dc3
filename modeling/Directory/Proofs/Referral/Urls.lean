import Directory.Proofs.Name.RoundTrip
import Directory.Proofs.Text.Pieces
import Directory.Referral.Policy

namespace Directory

open Text

/-! # URLs read from their own texts

The name in a URL stands under percent escapes, which leave no slash, question mark or blank, so
the parts of a URL are found again where they were put.  Resolving the escapes gives the text of
the name, and that is read as any text of a name is. -/

theorem mem_escapeDn {c : Char} {text : Text} (member : c ∈ escapeDn text) :
    isPlainInUrl c = true ∨ c = '%' := by
  have lettered : ∀ value < 16, (upperDigit value).isAlphanum = true := by decide
  simp only [escapeDn, percentEncode, List.mem_flatMap] at member
  obtain ⟨origin, _, member⟩ := member
  split at member
  · next plain =>
    obtain rfl := List.mem_singleton.mp member
    exact .inl plain
  · obtain ⟨octet, _, member⟩ := List.mem_flatMap.mp member
    have small : octet.toNat < 256 := octet.toNat_lt_size
    simp only [upperHex, List.mem_cons, List.not_mem_nil, or_false] at member
    rcases member with rfl | rfl | rfl
    · exact .inr rfl
    · exact .inl (by rw [isPlainInUrl, lettered _ (by omega), Bool.true_or])
    · exact .inl (by rw [isPlainInUrl, lettered _ (by omega), Bool.true_or])

theorem isBlank_of_mem_escapeDn {c : Char} {text : Text} (member : c ∈ escapeDn text) :
    isBlank c = false := by
  rcases mem_escapeDn member with plain | rfl
  · by_contra blank
    rw [Bool.not_eq_false] at blank
    rw [isPlainInUrl, isAlphanum_of_isBlank blank, Bool.false_or] at plain
    have solid : (ofLiteral "-._~,=+;:@!$&'()*").all (fun mark => !isBlank mark) = true := by
      decide +kernel
    simpa [blank] using List.all_eq_true.mp solid c (List.contains_iff_mem.mp plain)
  · rfl

theorem percentDecode_escapeDn (text : Text) : percentDecode (escapeDn text) = .ok text := by
  rw [percentDecode, escapeDn, percentPieces?_percentEncode (by decide +kernel)]
  simp only [ofPieces?_percentPieces]

namespace LdapUrl

/-- The same server and equal names. -/
structure SameAs (left right : LdapUrl) : Prop where
  scheme : left.scheme = right.scheme
  host : left.host = right.host
  dn : (left.dn == right.dn) = true

/-- What the reader makes sure of. -/
structure WellFormed (url : LdapUrl) : Prop where
  scheme : url.scheme ∈ schemes
  host : '/' ∉ url.host
  dn : ∃ written, Dn.parse written = .ok url.dn

theorem wellFormed_of_parse {given : Text} {url : LdapUrl} (parsed : parse given = .ok url) :
    url.WellFormed := by
  simp only [parse] at parsed
  split at parsed
  · contradiction
  · next rest _ =>
    obtain ⟨_, known, parsed⟩ := bind_eq_ok_iff.mp parsed
    obtain ⟨written, _, parsed⟩ := bind_eq_ok_iff.mp parsed
    obtain ⟨dn, read, same⟩ := bind_eq_ok_iff.mp parsed
    cases same
    refine ⟨by simpa [refuseIf_eq_ok_iff] using known, ?_, written, read⟩
    cases cut : cut? '/' rest with
    | none => exact cut?_eq_none_iff.mp cut
    | some parts => exact (eq_append_of_cut? cut).2

theorem trim_location {scheme : Text} (known : scheme ∈ schemes) (host name : Text) :
    Text.trim (scheme ++ "://" ++ host ++ '/' :: escapeDn name) =
      scheme ++ "://" ++ host ++ '/' :: escapeDn name := by
  have starts : ∀ scheme ∈ schemes, scheme.head?.any (fun c => !isBlank c) = true := by
    decide +kernel
  have solid := starts scheme known
  refine trim_eq_self_of_ends (fun c isFirst => ?_) (fun c isLast => ?_)
  · cases scheme with
    | nil => simp at solid
    | cons first later =>
      obtain rfl : first = c := by simpa using isFirst
      simpa using solid
  · rw [List.getLast?_append_cons] at isLast
    rcases List.mem_cons.mp (List.mem_of_getLast? isLast) with rfl | member
    · rfl
    · exact isBlank_of_mem_escapeDn member

theorem parse_location {scheme host : Text} (known : scheme ∈ schemes) (free : '/' ∉ host)
    (name : Dn) :
    ∃ read, parse (scheme ++ "://" ++ host ++ '/' :: escapeDn name.text) = .ok read ∧
      read.scheme = scheme ∧ read.host = host ∧
      List.Forall₂ Rdn.Rereads name.rdns read.dn.rdns := by
  have plain : ∀ scheme ∈ schemes, ':' ∉ scheme ∧ scheme.asciiLower = scheme := by decide +kernel
  obtain ⟨colonless, small⟩ := plain scheme known
  have mark : ofLiteral "://" = [':', '/', '/'] := by decide +kernel
  have server : cutAt? "://" (scheme ++ "://" ++ host ++ '/' :: escapeDn name.text) =
      some (scheme, host ++ '/' :: escapeDn name.text) := by
    rw [mark, List.append_assoc, cutAt?_append colonless]
  have path : cut? '/' (host ++ '/' :: escapeDn name.text) =
      some (host, escapeDn name.text) := cut?_append free _
  have whole : cut? '?' (escapeDn name.text) = none := by
    refine cut?_eq_none_iff.mpr fun member => ?_
    rcases mem_escapeDn member with plain | same
    · exact absurd plain (by decide +kernel)
    · exact absurd same (by decide)
  obtain ⟨dn, again, rereads⟩ := name.parse_text
  refine ⟨⟨scheme, host, dn⟩, ?_, rfl, rfl, rereads⟩
  simp only [parse, trim_location known, server, path, whole, small, Option.getD_some,
    Option.getD_none]
  have listed : (!schemes.contains scheme) = false := by simpa using known
  rw [listed, percentDecode_escapeDn]
  show (Dn.parse name.text >>= fun dn => _) = _
  rw [again]
  rfl

theorem WellFormed.parse_text {url : LdapUrl} (wellFormed : url.WellFormed) :
    ∃ read, parse url.text = .ok read ∧ read.SameAs url := by
  obtain ⟨read, parsed, scheme, host, rereads⟩ :=
    parse_location wellFormed.scheme wellFormed.host url.dn
  obtain ⟨written, source⟩ := wellFormed.dn
  have paths := Dn.path_eq_of_rereads rereads (Dn.obtained_of_parse source)
  exact ⟨read, parsed, scheme, host, Dn.beq_iff_path.mpr paths⟩

end LdapUrl

theorem DelegationTarget.parse_urlFor {value : Text} {target : DelegationTarget}
    (registered : ofRef value = .ok target) (name : Dn) :
    ∃ read, LdapUrl.parse (target.urlFor name) = .ok read ∧ read.location = target.location ∧
      List.Forall₂ Rdn.Rereads name.rdns read.dn.rdns := by
  obtain ⟨url, parsed, same⟩ := bind_eq_ok_iff.mp registered
  cases same
  have wellFormed := LdapUrl.wellFormed_of_parse parsed
  obtain ⟨read, again, scheme, host, rereads⟩ :=
    LdapUrl.parse_location wellFormed.scheme wellFormed.host name
  refine ⟨read, again, ?_, rereads⟩
  rw [LdapUrl.location, LdapUrl.location, scheme, host]

/-- The text of a URL that was read gives the same URL again.  Each redirect of a delegation is a
URL on its target's server, whose name has, step by step, the types as written and the compared
values of the steps below the delegation, followed by those of the target's base. -/
theorem Delegation.urls_read_back {given : Text} {url : LdapUrl} {delegation : Delegation}
    {name : Dn} (parsed : LdapUrl.parse given = .ok url)
    (registered : ∀ target ∈ delegation.targets, ∃ value, DelegationTarget.ofRef value = .ok target)
    (lies : delegation.point.isAncestorOrSelfOf name = true) :
    (∃ read, LdapUrl.parse url.text = .ok read ∧ read.SameAs url) ∧
      List.Forall₂ (fun (target : DelegationTarget) (redirect : RedirectTarget) =>
          ∃ read, LdapUrl.parse redirect.url = .ok read ∧ read.location = target.location ∧
            List.Forall₂ Rdn.Rereads
              (name.rdns.take (name.length - delegation.point.length) ++ target.base.rdns)
              read.dn.rdns)
        delegation.targets (delegation.redirects name) := by
  refine ⟨(LdapUrl.wellFormed_of_parse parsed).parse_text, ?_⟩
  rw [Delegation.redirects, Dn.relativeTo?_of_lies lies, Option.getD_some,
    List.forall₂_map_right_iff, List.forall₂_same]
  intro target listed
  obtain ⟨value, isRegistered⟩ := registered target listed
  exact DelegationTarget.parse_urlFor isRegistered _

/-- A slash, a question mark, a percent sign and a letter beyond ASCII in the name, a comma and a
plus sign in the base, and a question mark in the host. -/
theorem Delegation.urls_read_back_delimiters :
    ∃ (url read : LdapUrl) (target : DelegationTarget) (delegation : Delegation) (name : Dn),
      LdapUrl.parse " LDAP://h?i:389/ou=x%5C2c%5c%2By?sub " = .ok url ∧
      DelegationTarget.ofRef " LDAP://h?i:389/ou=x%5C2c%5c%2By?sub " = .ok target ∧
      Dn.parse ("cn=\\20a/b?c%" ++ '\u00e9' :: "\\,,o=a") = .ok name ∧
      delegation.targets = [target] ∧ delegation.point.isAncestorOrSelfOf name = true ∧
      (delegation.redirects name).map RedirectTarget.url =
        (["ldap://h?i:389/cn=%5C%20a%2Fb%3Fc%25%C3%A9%5C,,ou=x%5C,%5C+y"] : List Text) ∧
      LdapUrl.parse url.text = .ok read ∧ read.SameAs url ∧
      List.Forall₂ (fun (target : DelegationTarget) (redirect : RedirectTarget) =>
          ∃ read, LdapUrl.parse redirect.url = .ok read ∧ read.location = target.location ∧
            List.Forall₂ Rdn.Rereads
              (name.rdns.take (name.length - delegation.point.length) ++ target.base.rdns)
              read.dn.rdns)
        delegation.targets (delegation.redirects name) := by
  have run : (do
      let url ← LdapUrl.parse " LDAP://h?i:389/ou=x%5C2c%5c%2By?sub "
      let target ← DelegationTarget.ofRef " LDAP://h?i:389/ou=x%5C2c%5c%2By?sub "
      let point ← Dn.parse "O=A"
      let name ← Dn.parse ("cn=\\20a/b?c%" ++ '\u00e9' :: "\\,,o=a")
      Except.ok (decide (point.isAncestorOrSelfOf name = true ∧
        ((Delegation.mk point [target]).redirects name).map RedirectTarget.url =
          (["ldap://h?i:389/cn=%5C%20a%2Fb%3Fc%25%C3%A9%5C,,ou=x%5C,%5C+y"] : List Text)))) =
        Except.ok (ε := Error) true := by
    decide +kernel
  obtain ⟨url, parsed, run⟩ := bind_eq_ok_iff.mp run
  obtain ⟨target, registered, run⟩ := bind_eq_ok_iff.mp run
  obtain ⟨point, _, run⟩ := bind_eq_ok_iff.mp run
  obtain ⟨name, named, run⟩ := bind_eq_ok_iff.mp run
  obtain ⟨lies, urls⟩ := of_decide_eq_true (Except.ok.inj run)
  let delegation : Delegation := ⟨point, [target]⟩
  have registeredAll : ∀ other ∈ delegation.targets, ∃ value,
      DelegationTarget.ofRef value = .ok other :=
    fun other listed => ⟨_, List.mem_singleton.mp listed ▸ registered⟩
  obtain ⟨⟨read, again, same⟩, redirects⟩ :=
    Delegation.urls_read_back parsed registeredAll lies
  exact ⟨url, read, target, _, name, parsed, registered, named, rfl, lies, urls, again, same,
    redirects⟩

end Directory
