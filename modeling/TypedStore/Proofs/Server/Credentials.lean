/-
Credentials in an address. A user and a password are written with codes for everything that is not plain,
but the codes of the whole address are read before the address is cut, and the client reads codes once
more. So they get through just where they need no codes at that point (`credentials_survive_iff`): nothing in
them delimits, is dropped or reads as a code. All other credentials are lost, which is seen by counting
bytes: what an address shows as user and password is never longer than what was cut out of it.
-/
import TypedStore.Proofs.Server.Encryption

set_option autoImplicit false

namespace TypedStore.Server

open TypedStore.Text

/-! ## 1. Logins -/

/-- Characters that are written as they are: letters, digits and four marks. -/
def isUnreserved (c : Char) : Bool := c.isAlphanum || c == '-' || c == '.' || c == '_' || c == '~'

/-- What logins begin with. -/
def loginScheme : String := "postgres" ++ schemeMark

/-- The address of a login, with codes for all characters of the user and the password but plain ones. -/
def loginAddress (user password host database : String) : String :=
  loginScheme ++ String.ofList (percentEncode isUnreserved user.toList
    ++ ':' :: (percentEncode isUnreserved password.toList ++ '@' :: (host.toList ++ '/' :: database.toList)))

/-- The text behind the scheme of a login that is written without codes. -/
def loginText (user password host database : List Char) : List Char :=
  user ++ ':' :: (password ++ '@' :: (host ++ '/' :: database))

/-- The address that goes to the client, without its settings of encryption. -/
def securedUrl? (d : EncryptionDefaults) (address : String) : Option SecuredUrl := do
  let decoded ← percentDecode? address.toList
  let _ ← cutScheme? decoded.toList
  let u ← ConnectionUrl.ofText? decoded
  some (u.secured d)

/-- The client gets that address, and where there is none nothing happens at the server. -/
theorem state_connect (address : String) (j : Journal ServerState) :
    ((connect address).perform j).2.state
      = match securedUrl? j.state.defaults address with
        | none => j.state
        | some u =>
          let seen := j.state.see (openSession j.state.peer u).1
          if (openSession j.state.peer u).2 then seen.connected.2 else seen := by
  rw [connect, securedUrl?]
  cases percentDecode? address.toList with
  | none => rfl
  | some decoded =>
    simp only [Option.bind_eq_bind, Option.bind_some]
    cases cutScheme? decoded.toList with
    | none => rfl
    | some cut =>
      cases ConnectionUrl.ofText? decoded with
      | none => rfl
      | some u =>
        have opened : ∀ next : ServerState → Action ServerState ServerHandle,
            (Action.state >>= next).perform j = (next j.state).perform j := fun _ => rfl
        simp only [Option.isNone_some, Bool.false_eq_true, if_false, Option.bind_some]
        rw [opened]
        generalize openSession j.state.peer (u.secured j.state.defaults) = seen
        obtain ⟨events, _ | _⟩ := seen
        · rfl
        · rfl

/-- Whether the address that goes to the client shows the user and the password of a login. -/
def Survive (d : EncryptionDefaults) (user password host database : String) : Prop :=
  ∃ u, securedUrl? d (loginAddress user password host database) = some u
    ∧ percentDecode? u.url.user.toList = some user
    ∧ percentDecode? (u.url.password?.getD "").toList = some password

theorem utf8Decode?_eq_some {bytes : List UInt8} {s : String} :
    utf8Decode? bytes = some s ↔ bytes = charBytes s.toList := by
  constructor
  · intro h
    rw [← utf8Encode_eq]
    rw [utf8Decode?, String.fromUTF8?] at h
    split at h
    · cases h
      rw [utf8Encode, toList_eq]
      rfl
    · cases h
  · rintro rfl
    rw [← utf8Encode_eq, utf8Decode?_utf8Encode]

theorem percentDecode?_eq_some {cs : List Char} {s : String} :
    percentDecode? cs = some s ↔ percentBytes cs = charBytes s.toList :=
  utf8Decode?_eq_some

/-- The codes of a login are read, and its delimiters are no longer told apart from what they delimit. -/
theorem percentDecode?_loginAddress {host database decoded : String} (plain : '%' ∉ host.toList)
    (readable : percentDecode? database.toList = some decoded) (user password : String) :
    percentDecode? (loginAddress user password host database).toList
      = some (loginScheme ++ String.ofList
          (loginText user.toList password.toList host.toList decoded.toList)) := by
  have unkept : isUnreserved '%' = false := by decide
  have scheme : '%' ∉ loginScheme.toList := by decide
  have marks : ':' ≠ '%' ∧ '@' ≠ '%' ∧ '/' ≠ '%' := by decide
  have read := percentDecode?_eq_some.1 readable
  refine percentDecode?_eq_some.2 ?_
  rw [loginAddress, loginText, String.toList_append, String.toList_append, String.toList_ofList,
    String.toList_ofList, percentBytes_append_of_not_mem scheme,
    percentBytes_percentEncode_of_coded unkept, percentBytes_cons marks.1,
    percentBytes_percentEncode_of_coded unkept, percentBytes_cons marks.2.1,
    percentBytes_append_of_not_mem plain, percentBytes_cons marks.2.2, read]
  simp only [charBytes_append, charBytes_cons]

/-! ## 2. What counts of a login -/

/-- The characters of an address that count wherever they stand. -/
def undropped (cs : List Char) : List Char := cs.filter fun c => c != '\t' && c != '\n' && c != '\r'

theorem undropped_sublist (cs : List Char) : (undropped cs).Sublist cs := List.filter_sublist

theorem undropped_append (before behind : List Char) :
    undropped (before ++ behind) = undropped before ++ undropped behind := List.filter_append ..

theorem undropped_mark {c : Char} (mark : c ∈ [':', '@', '/']) (rest : List Char) :
    undropped (c :: rest) = c :: undropped rest := by
  have kept : ∀ c ∈ [':', '@', '/'], (c != '\t' && c != '\n' && c != '\r') = true :=
    forall_of_all (by decide)
  exact List.filter_cons_of_pos (kept c mark)

theorem undropped_host {host : List Char} {written : String} (read : readHost? host = some written) :
    undropped host = host := by
  have apart : ∀ c ∈ ['\t', '\n', '\r'], c ∈ hostDelimiters := forall_of_all (by decide)
  refine List.filter_eq_self.2 fun c mem => ?_
  have outside : c ∉ ['\t', '\n', '\r'] := fun own => (not_mem_host read (apart c own)).1 mem
  simpa [and_assoc] using outside

theorem dropEnd_append {p : Char → Bool} {c : Char} (keeps : p c = false) (before behind : List Char) :
    dropEnd p (before ++ c :: behind) = before ++ c :: dropEnd p behind := by
  have reversed : (before ++ c :: behind).reverse = behind.reverse ++ c :: before.reverse := by simp
  rw [dropEnd, dropEnd, reversed, List.dropWhile_append]
  split
  · rename_i none
    rw [List.isEmpty_iff.1 none, List.dropWhile_cons_of_neg (by simp [keeps])]
    simp
  · simp

/-- The text behind the scheme of a login, without the characters that do not count. -/
def significantLogin (user password host database : List Char) : List Char :=
  loginText (undropped user) (undropped password) host (undropped (dropEnd isEdge database))

/-- At its ends an address loses at most some of the database. -/
theorem significant_login {host : List Char} {written : String} (read : readHost? host = some written)
    (user password database : List Char) :
    significant (loginScheme.toList ++ loginText user password host database)
      = loginScheme.toList ++ significantLogin user password host database := by
  have scheme : undropped loginScheme.toList = loginScheme.toList := by decide
  have front : ∀ rest, (loginScheme.toList ++ rest).dropWhile isEdge = loginScheme.toList ++ rest :=
    fun rest => List.dropWhile_cons_of_neg (by decide)
  have last : loginScheme.toList ++ loginText user password host database
      = (loginScheme.toList ++ (user ++ ':' :: (password ++ '@' :: host))) ++ '/' :: database := by
    simp [loginText]
  have ended : dropEnd isEdge (loginScheme.toList ++ loginText user password host database)
      = loginScheme.toList ++ loginText user password host (dropEnd isEdge database) := by
    rw [last, dropEnd_append (by decide)]
    simp [loginText]
  rw [significant, front, ended]
  refine (undropped_append _ _).trans ?_
  rw [scheme, loginText, undropped_append, undropped_mark (by decide), undropped_append,
    undropped_mark (by decide), undropped_append, undropped_mark (by decide), undropped_host read]
  rfl

theorem cutScheme?_login (rest : List Char) :
    cutScheme? (loginScheme.toList ++ rest) = some ("postgres", rest) := by
  have own : loginScheme.toList.isPrefixOf (loginScheme.toList ++ rest) = true :=
    List.isPrefixOf_iff_prefix.2 (List.prefix_append _ _)
  have first : (if loginScheme.toList.isPrefixOf (loginScheme.toList ++ rest) then
      some ("postgres", (loginScheme.toList ++ rest).drop loginScheme.toList.length) else none)
        = some ("postgres", rest) := by
    rw [if_pos own, List.drop_left]
  exact List.findSome?_eq_some_iff.2 ⟨[], "postgres", ["postgresql"], rfl, first, nofun⟩

/-! ## 3. Which credentials are cut out -/

theorem takeWhile_append_of_all {p : Char → Bool} {before : List Char} (all : ∀ c ∈ before, p c = true)
    {c : Char} (stops : p c = false) (behind : List Char) :
    (before ++ c :: behind).takeWhile p = before := by
  rw [List.takeWhile_append_of_pos all, List.takeWhile_cons_of_neg (by simp [stops]), List.append_nil]

/-- Whether a character stands within an authority. -/
def inAuthority (c : Char) : Bool := c != '#' && c != '?' && c != '/'

theorem inAuthority_host {host : List Char} {written : String} (read : readHost? host = some written) :
    ∀ c ∈ host, inAuthority c = true := by
  have apart : ∀ c ∈ ['#', '?', '/'], c ∈ hostDelimiters := forall_of_all (by decide)
  intro c mem
  have outside : c ∉ ['#', '?', '/'] := fun own => (not_mem_host read (apart c own)).1 mem
  simpa [inAuthority, and_assoc] using outside

/-- Where nothing delimits in them, the user and the password are cut out whole. -/
theorem authorityOf_of_all {user password host database : List Char} {written : String}
    (read : readHost? host = some written)
    (all : ∀ c ∈ user ++ ':' :: password, inAuthority c = true) :
    authorityOf (loginText user password host database) = (user ++ ':' :: password) ++ '@' :: host := by
  have parts : loginText user password host database
      = ((user ++ ':' :: password) ++ '@' :: host) ++ '/' :: database := by simp [loginText]
  rw [authorityOf, parts]
  refine takeWhile_append_of_all (p := inAuthority) (fun c mem => ?_) (by decide) database
  rcases List.mem_append.1 mem with mem | mem
  · exact all c mem
  · rcases List.mem_cons.1 mem with rfl | mem
    · decide
    · exact inAuthority_host read c mem

/-! ## 4. Counting bytes -/

/-- A text that holds less than another takes fewer bytes. -/
theorem eq_or_byteLength_lt {part cs : List Char} (h : part.Sublist cs) :
    part = cs ∨ byteLength part < byteLength cs := by
  induction h with
  | slnil => exact .inl rfl
  | cons c _ ih =>
    have room := Char.utf8Size_pos c
    right
    rw [byteLength]
    rcases ih with rfl | less <;> omega
  | cons_cons c _ ih =>
    refine ih.imp (fun same => by rw [same]) fun less => ?_
    rw [byteLength, byteLength]
    omega

theorem byteLength_le_of_sublist {part cs : List Char} (h : part.Sublist cs) :
    byteLength part ≤ byteLength cs := by
  rcases eq_or_byteLength_lt h with rfl | less
  · exact Nat.le_refl _
  · exact Nat.le_of_lt less

theorem eq_nil_of_byteLength {cs : List Char} (nothing : byteLength cs = 0) : cs = [] := by
  cases cs with
  | nil => rfl
  | cons c rest =>
    have room := Char.utf8Size_pos c
    rw [byteLength] at nothing
    omega

theorem byteLength_mark {c : Char} (mark : c ∈ [':', '@']) (rest : List Char) :
    byteLength (c :: rest) = byteLength rest + 1 := by
  have one : ∀ c ∈ [':', '@'], c.utf8Size = 1 := forall_of_all (by decide)
  rw [byteLength, one c mark, Nat.add_comm]

/-- What stands for a text takes as many bytes at least. -/
theorem byteLength_le_of_percentBytes {cs : List Char} {s : String}
    (h : percentBytes cs = charBytes s.toList) : byteLength s.toList ≤ byteLength cs := by
  have shorter := length_percentBytes_le cs
  rwa [h, length_charBytes, length_charBytes] at shorter

/-- Where something delimits in credentials, less than them is left of an authority. -/
theorem byteLength_authorityOf_lt {cs : List Char} (cut : ¬ ∀ c ∈ cs, inAuthority c = true)
    (rest : List Char) : byteLength (authorityOf (cs ++ rest)) < byteLength cs := by
  have part : authorityOf (cs ++ rest) = cs.takeWhile inAuthority := by
    refine List.takeWhile_append.trans (if_neg fun whole => cut ?_)
    exact List.takeWhile_eq_self_iff.1 ((List.takeWhile_sublist _).eq_of_length whole)
  rw [part]
  exact (eq_or_byteLength_lt (List.takeWhile_sublist _)).resolve_left fun whole =>
    cut (List.takeWhile_eq_self_iff.1 whole)

/-- The `@` behind credentials takes a byte. -/
theorem byteLength_credentialsOf (cs : List Char) :
    credentialsOf cs = [] ∨ byteLength (credentialsOf cs) < byteLength cs := by
  rcases cutAtLast?_cases '@' cs with cut | ⟨before, behind, cut, whole⟩
  · exact .inl (by rw [credentialsOf, cut]; rfl)
  · have before' : credentialsOf cs = before := by rw [credentialsOf, cut]; rfl
    right
    rw [before', whole, byteLength_append, byteLength_mark (by decide)]
    omega

/-! ## 5. What is read as credentials -/

/-- Codes are kept where credentials are written, so they are read as before. -/
theorem percentDecode?_written {cs : List Char} {s : String} :
    percentDecode? (String.ofList (percentEncode keptInCredentials cs)).toList = some s
      ↔ percentBytes cs = charBytes s.toList := by
  rw [String.toList_ofList, percentDecode?_eq_some,
    percentBytes_percentEncode_of_kept keepsCodes_keptInCredentials]

/-- A text shows a user and a password. -/
def Shows (cs : List Char) (user password : String) : Prop :=
  percentDecode? (readCredentials cs).1.toList = some user
    ∧ percentDecode? ((readCredentials cs).2.getD "").toList = some password

theorem shows_of_colon {user password : List Char} (free : ':' ∉ user) {user' password' : String} :
    Shows (user ++ ':' :: password) user' password'
      ↔ percentBytes user = charBytes user'.toList ∧ percentBytes password = charBytes password'.toList := by
  have cut := cutAt?_append free password
  simp only [Shows, readCredentials, cut]
  refine and_congr percentDecode?_written ?_
  cases password with
  | nil => exact percentDecode?_eq_some
  | cons c rest => exact percentDecode?_written

theorem Shows.cases {cs : List Char} {user password : String} (h : Shows cs user password) :
    (':' ∉ cs ∧ percentBytes cs = charBytes user.toList ∧ password = "")
      ∨ ∃ front behind, cs = front ++ ':' :: behind ∧ ':' ∉ front
        ∧ percentBytes front = charBytes user.toList
        ∧ percentBytes behind = charBytes password.toList := by
  by_cases colon : ':' ∈ cs
  · obtain ⟨front, behind, rfl, free⟩ := List.eq_append_cons_of_mem colon
    obtain ⟨first, second⟩ := (shows_of_colon free).1 h
    exact .inr ⟨front, behind, rfl, free, first, second⟩
  · simp only [Shows, readCredentials, cutAt?_eq_none colon] at h
    have none : percentDecode? "".toList = some "" := by decide
    rw [Option.getD_none, none] at h
    exact .inl ⟨colon, percentDecode?_written.1 h.1, (Option.some.inj h.2).symm⟩

/-- What a text shows is no longer than the text. -/
theorem Shows.byteLength_le {cs : List Char} {user password : String} (h : Shows cs user password) :
    byteLength user.toList + byteLength password.toList ≤ byteLength cs := by
  rcases h.cases with ⟨-, first, rfl⟩ | ⟨front, behind, rfl, -, first, second⟩
  · exact byteLength_le_of_percentBytes first
  · have := byteLength_le_of_percentBytes first
    have := byteLength_le_of_percentBytes second
    rw [byteLength_append, byteLength_mark (by decide)]
    omega

/-! ## 6. Credentials that survive -/

/-- A host that an address can name, without codes. -/
def IsHost (host : String) : Prop := host ≠ "" ∧ '%' ∉ host.toList ∧ (readHost? host.toList).isSome = true

/-- Characters that delimit behind the user and the password, and characters that are dropped. -/
def lostChars : List Char := ['#', '?', '/', '\t', '\n', '\r']

/-- Whether a text has none of some characters and no codes. -/
def IsClear (barred : List Char) (s : String) : Prop :=
  (∀ c ∈ barred, c ∉ s.toList) ∧ holdsCode s.toList = false

instance (host : String) : Decidable (IsHost host) := inferInstanceAs (Decidable (_ ∧ _))

theorem not_mem_lostChars_iff (cs : List Char) :
    (∀ c ∈ lostChars, c ∉ cs) ↔ (∀ c ∈ cs, inAuthority c = true) ∧ undropped cs = cs := by
  have kept : ∀ c, c ∉ lostChars ↔ inAuthority c = true ∧ (c != '\t' && c != '\n' && c != '\r') = true := by
    intro c
    simp only [lostChars, inAuthority, List.mem_cons, List.not_mem_nil, or_false, not_or,
      Bool.and_eq_true, bne_iff_ne, and_assoc]
  rw [undropped, List.filter_eq_self, ← forall₂_and]
  constructor
  · exact fun free c mem => (kept c).1 fun lost => free c lost mem
  · exact fun all c lost mem => (kept c).2 (all c mem) lost

theorem credentialsOf_login {host : List Char} {written : String} (read : readHost? host = some written)
    (credentials : List Char) : credentialsOf (credentials ++ '@' :: host) = credentials := by
  have free : '@' ∉ host := (not_mem_host read (by decide)).1
  rw [credentialsOf, cutAtLast?_append free]
  rfl

/-- Where nothing delimits in credentials, an address with them is read. -/
theorem isSome_readAuthority?_login {host : List Char} {written : String}
    (read : readHost? host = some written) (real : written ≠ "") (user password : List Char) (ends : Bool) :
    (readAuthority? ((user ++ ':' :: password) ++ '@' :: host) ends).isSome = true := by
  have free : '@' ∉ host := (not_mem_host read (by decide)).1
  have lone : (some (user ++ ':' :: password) == some []) = false := by simp
  simp only [readAuthority?, cutAtLast?_append free, cutHost_of_readHost? read, List.drop_nil]
  simp [read, readPort?, real, lone]

theorem keepsCodes_isPlain : KeepsCodes isPlain := keepsCodes_of_codeDigits (forall_of_all (by decide))

/-- A host that is named is not written as nothing. -/
theorem IsHost.written {host : String} (h : IsHost host) :
    ∃ written, readHost? host.toList = some written ∧ written ≠ "" := by
  obtain ⟨written, read⟩ := Option.isSome_iff_exists.1 h.2.2
  refine ⟨written, read, ?_⟩
  rintro rfl
  have named : host.toList ≠ [] := fun none => h.1 (String.toList_eq_nil_iff.1 none)
  obtain ⟨inner, whole, -, same⟩ | ⟨-, same⟩ := readHost?_cases read
  · exact named same.symm
  · have bytes := percentBytes_percentEncode_of_kept keepsCodes_isPlain host.toList
    rw [← same, ← List.append_nil host.toList, percentBytes_append_of_not_mem h.2.1] at bytes
    have nothing : byteLength host.toList = 0 := by
      rw [← length_charBytes, List.length_eq_zero_iff]
      exact (List.append_eq_nil_iff.1 bytes.symm).1
    exact named (eq_nil_of_byteLength nothing)

/-- Only the authority of what counts of a login decides: it must be one, and show both. -/
theorem survive_iff {host database decoded written : String} (plain : '%' ∉ host.toList)
    (read : readHost? host.toList = some written)
    (readable : percentDecode? database.toList = some decoded) (d : EncryptionDefaults)
    (user password : String) {rest : List Char}
    (own : significantLogin user.toList password.toList host.toList decoded.toList = rest) :
    Survive d user password host database
      ↔ (readAuthority? (authorityOf rest) (endsWithAuthority rest)).isSome = true
        ∧ Shows (credentialsOf (authorityOf rest)) user password := by
  have address : ConnectionUrl.ofText? (loginScheme ++ String.ofList
      (loginText user.toList password.toList host.toList decoded.toList))
        = (readAuthority? (authorityOf rest) (endsWithAuthority rest)).bind fun a =>
          some (a.address "postgres" rest) := by
    rw [ofText?_eq, String.toList_append, String.toList_ofList, significant_login read, own,
      cutScheme?_login]
    rfl
  have client : securedUrl? d (loginAddress user password host database)
      = (readAuthority? (authorityOf rest) (endsWithAuthority rest)).bind fun a =>
        some ((a.address "postgres" rest).secured d) := by
    have scheme := cutScheme?_login (loginText user.toList password.toList host.toList decoded.toList)
    rw [securedUrl?, percentDecode?_loginAddress plain readable]
    simp only [Option.bind_eq_bind, Option.bind_some, address, Option.bind_assoc]
    rw [String.toList_append, String.toList_ofList, scheme, Option.bind_some]
  rw [Survive, client]
  cases authority : readAuthority? (authorityOf rest) (endsWithAuthority rest) with
  | none => simp
  | some a =>
    obtain ⟨credentials, -⟩ := readAuthority?_eq_some authority
    have user' : ((a.address "postgres" rest).secured d).url.user
        = (readCredentials (credentialsOf (authorityOf rest))).1 := by
      rw [← credentials, url_secured]
      rfl
    have password' : ((a.address "postgres" rest).secured d).url.password?
        = (readCredentials (credentialsOf (authorityOf rest))).2 := by
      rw [← credentials, url_secured]
      rfl
    simp only [Option.bind_some, Option.some.injEq, exists_eq_left', Option.isSome_some, true_and, user',
      password', Shows]

/-- Where a login shows its user and its password, nothing delimits in them. -/
theorem inAuthority_of_shows {user password host database : List Char} {user' password' : String}
    (room : byteLength user + byteLength password ≤ byteLength user'.toList + byteLength password'.toList)
    (shows : Shows (credentialsOf (authorityOf (loginText user password host database))) user' password') :
    ∀ c ∈ user ++ ':' :: password, inAuthority c = true := by
  by_contra cut
  have parts : loginText user password host database
      = (user ++ ':' :: password) ++ '@' :: (host ++ '/' :: database) := by simp [loginText]
  have less := byteLength_authorityOf_lt cut ('@' :: (host ++ '/' :: database))
  rw [← parts, byteLength_append, byteLength_mark (by decide)] at less
  have shown := shows.byteLength_le
  rcases byteLength_credentialsOf (authorityOf (loginText user password host database)) with none | fewer
  · -- nothing is shown, so nothing was given
    rw [none] at shown
    have nothing : byteLength [] = 0 := rfl
    have noUser : user = [] := eq_nil_of_byteLength (by omega)
    have noPassword : password = [] := eq_nil_of_byteLength (by omega)
    rw [noUser, noPassword] at cut
    exact cut (forall_of_all (by decide))
  · omega

theorem isClear_iff (ends : List Char) (s : String) :
    IsClear (ends ++ lostChars) s ↔ (∀ c ∈ ends, c ∉ s.toList) ∧ (∀ c ∈ s.toList, inAuthority c = true)
      ∧ undropped s.toList = s.toList ∧ percentBytes s.toList = charBytes s.toList := by
  rw [IsClear, List.forall_mem_append, not_mem_lostChars_iff, percentBytes_eq_iff]
  simp only [and_assoc]

/-- What a login shows is counted: it fits only where nothing was dropped, cut off or read as a code. -/
theorem isClear_of_shows {user password : String}
    (all : ∀ c ∈ undropped user.toList ++ ':' :: undropped password.toList, inAuthority c = true)
    (shows : Shows (undropped user.toList ++ ':' :: undropped password.toList) user password) :
    IsClear ([':'] ++ lostChars) user ∧ IsClear ([] ++ lostChars) password := by
  have colon : ':' ∈ undropped user.toList ++ ':' :: undropped password.toList :=
    List.mem_append_right _ List.mem_cons_self
  obtain ⟨front, behind, whole, free, first, second⟩ := shows.cases.resolve_left fun h => h.1 colon
  have shownUser := byteLength_le_of_percentBytes first
  have shownPassword := byteLength_le_of_percentBytes second
  have leftUser := byteLength_le_of_sublist (undropped_sublist user.toList)
  have leftPassword := byteLength_le_of_sublist (undropped_sublist password.toList)
  have sizes := congrArg byteLength whole
  rw [byteLength_append, byteLength_append, byteLength_mark (by decide), byteLength_mark (by decide)] at sizes
  have keptUser := (eq_or_byteLength_lt (undropped_sublist user.toList)).resolve_right (by omega)
  have keptPassword := (eq_or_byteLength_lt (undropped_sublist password.toList)).resolve_right (by omega)
  rw [keptUser, keptPassword] at whole all
  -- both are cut out of one text, and they are of one size
  have same : front = user.toList := by
    rcases List.prefix_or_prefix_of_prefix (List.prefix_append front (':' :: behind))
      (whole ▸ List.prefix_append user.toList (':' :: password.toList)) with shorter | longer
    · exact (eq_or_byteLength_lt shorter.sublist).resolve_right (by omega)
    · exact ((eq_or_byteLength_lt longer.sublist).resolve_right (by omega)).symm
  subst same
  obtain ⟨-, rfl⟩ := List.cons.inj (List.append_cancel_left whole)
  refine ⟨(isClear_iff _ _).2 ⟨?_, fun c mem => all c (List.mem_append_left _ mem), keptUser, first⟩,
    (isClear_iff _ _).2 ⟨nofun, fun c mem => all c ?_, keptPassword, second⟩⟩
  · intro c mem
    rwa [List.mem_singleton.1 mem]
  · exact List.mem_append_right _ (List.mem_cons_of_mem _ mem)

/-- **Credentials survive** just where nothing delimits or is dropped in them and they hold no codes. -/
theorem credentials_survive_iff {host database : String} (named : IsHost host)
    (readable : (percentDecode? database.toList).isSome = true) (d : EncryptionDefaults)
    (user password : String) :
    Survive d user password host database
      ↔ IsClear (':' :: lostChars) user ∧ IsClear lostChars password := by
  obtain ⟨written, read, real⟩ := named.written
  obtain ⟨decoded, readable⟩ := Option.isSome_iff_exists.1 readable
  rw [survive_iff named.2.1 read readable d user password rfl, significantLogin]
  constructor
  · rintro ⟨-, shows⟩
    have all := inAuthority_of_shows (Nat.add_le_add (byteLength_le_of_sublist (undropped_sublist _))
      (byteLength_le_of_sublist (undropped_sublist _))) shows
    rw [authorityOf_of_all read all, credentialsOf_login read] at shows
    exact isClear_of_shows all shows
  · intro ⟨user', password'⟩
    obtain ⟨colon, allUser, keptUser, codesUser⟩ := (isClear_iff [':'] user).1 user'
    obtain ⟨-, allPassword, keptPassword, codesPassword⟩ := (isClear_iff [] password).1 password'
    have all : ∀ c ∈ user.toList ++ ':' :: password.toList, inAuthority c = true := by
      intro c mem
      rcases List.mem_append.1 mem with mem | mem
      · exact allUser c mem
      · rcases List.mem_cons.1 mem with rfl | mem
        · decide
        · exact allPassword c mem
    rw [keptUser, keptPassword, authorityOf_of_all read all, credentialsOf_login read]
    exact ⟨isSome_readAuthority?_login read real _ _ _,
      (shows_of_colon (colon _ List.mem_cons_self)).2 ⟨codesUser, codesPassword⟩⟩

/-- A user with an `@`, a password with a colon and a percent sign that begins no code. -/
theorem credentials_survive_iff_marked :
    IsHost "db" ∧ (percentDecode? "library".toList).isSome = true
      ∧ Survive ⟨none, none, none, none⟩ "r@tröve" "a:b 100%" "db" "library" := by
  have named : IsHost "db" := by decide +kernel
  have readable : (percentDecode? "library".toList).isSome = true := by decide +kernel
  exact ⟨named, readable, (credentials_survive_iff named readable _ _ _).2
    ⟨⟨forall_of_all (by decide +kernel), by decide +kernel⟩,
      forall_of_all (by decide +kernel), by decide +kernel⟩⟩

/-- A password with a question mark makes an address that cannot be read, and a code in a user is taken
for the character that it stands for. -/
theorem credentials_lost :
    securedUrl? ⟨none, none, none, none⟩ (loginAddress "trove" "p?w" "localhost" "library") = none
      ∧ ¬ Survive ⟨none, none, none, none⟩ "trove" "p?w" "localhost" "library"
      ∧ (securedUrl? ⟨none, none, none, none⟩ (loginAddress "tro%41ve" "" "localhost" "library")).map
          (fun u => percentDecode? u.url.user.toList) = some (some "troAve")
      ∧ ¬ Survive ⟨none, none, none, none⟩ "tro%41ve" "" "localhost" "library" := by
  have unread : securedUrl? ⟨none, none, none, none⟩ (loginAddress "trove" "p?w" "localhost" "library")
      = none := by
    decide +kernel
  have coded : (securedUrl? ⟨none, none, none, none⟩ (loginAddress "tro%41ve" "" "localhost" "library")).map
      (fun u => percentDecode? u.url.user.toList) = some (some "troAve") := by
    decide +kernel
  refine ⟨unread, ?_, coded, ?_⟩
  · rintro ⟨u, client, -⟩
    rw [unread] at client
    cases client
  · rintro ⟨u, client, user, -⟩
    rw [client, Option.map_some, user] at coded
    exact absurd coded (by decide)

end TypedStore.Server
