/-
The request command: what it leaves on the machine.

Until it has a key and a chain it only notes things (`runOn_request`), so what
is refused leaves the files as they are.  From there on it makes directories
and writes two files, whose names come from a certificate that somebody else
chose; they are plain names all the same (`isPlain_append`), so they lead one
step down from the directory, and no further (`runOn_store`).  What is in the
files loads, since the chain is for the key that was made.

The key is written first.  If its chain cannot be written then, the command fails and
leaves the key file without its chain (`runOn_writePair_of_blocked`): nothing is
taken back.
-/
import Enrollment.Command.Request
import Enrollment.Proofs.Client.Acceptance
import Enrollment.Proofs.Client.Issue
import Enrollment.Proofs.Command.Job

namespace Enrollment.Command

-- ============================================================ file names

/-- The names of the two files with a stem. -/
def keyName (stem : String) : String := stem ++ "-key.pem"
def chainName (stem : String) : String := stem ++ "-chain.pem"

/-- What is made of a common name holds harmless characters only. -/
theorem isFileNameChar_fileStem (commonName : String) :
    ∀ c ∈ (fileStem commonName).toList, isFileNameChar c = true := by
  intro c hc
  rw [fileStem, String.toList_ofList] at hc
  obtain ⟨d, -, rfl⟩ := List.mem_map.1 hc
  by_cases h : isFileNameChar d = true
  · rw [if_pos h]
    exact h
  · rw [if_neg h]
    decide

theorem length_fileStem (commonName : String) :
    (fileStem commonName).length = commonName.length := by
  rw [fileStem, ← String.length_toList, ← String.length_toList, String.toList_ofList,
    List.length_map]

/-- What the stem of the files for a certificate is like. -/
structure SafeStem (c : Certificate) (stem : String) : Prop where
  chars : ∀ ch ∈ stem.toList, isFileNameChar ch = true
  /-- There is one character for each of the common name. -/
  named : ∀ commonName, c.commonName = some commonName → stem.length = commonName.length
  unnamed : c.commonName = none → stem = "host"

/-- The stem for a certificate is safe, whatever its common name is. -/
theorem safeStem_stemOf (c : Certificate) : SafeStem c (stemOf c) := by
  cases hname : c.commonName with
  | none =>
    have hstem : stemOf c = "host" := by rw [stemOf, hname]; rfl
    rw [hstem]
    refine ⟨List.all_eq_true.1 (by decide), fun other h => ?_, fun _ => rfl⟩
    rw [hname] at h
    cases h
  | some commonName =>
    have hstem : stemOf c = fileStem commonName := by rw [stemOf, hname]; rfl
    rw [hstem]
    refine ⟨isFileNameChar_fileStem commonName, fun other h => ?_, fun h => ?_⟩
    · cases hname.symm.trans h
      exact length_fileStem commonName
    · rw [hname] at h
      cases h

theorem ne_slash_of_isFileNameChar {c : Char} (h : isFileNameChar c = true) : c ≠ '/' := by
  rintro rfl
  revert h
  decide

/-- A stem of such characters makes a plain name with its ending. -/
theorem isPlain_append {stem ending : String} (hstem : ∀ c ∈ stem.toList, isFileNameChar c = true)
    (hending : '/' ∉ ending.toList) (hlength : 2 < ending.toList.length) :
    Path.IsPlain (stem ++ ending) := by
  have hlong : 2 < (stem ++ ending).toList.length := by
    rw [String.toList_append, List.length_append]
    omega
  have hshort : ∀ short : String, short.toList.length ≤ 2 → stem ++ ending ≠ short := by
    rintro short hle rfl
    omega
  refine ⟨fun c hc => ?_, hshort _ (by decide), hshort _ (by decide), hshort _ (by decide)⟩
  rw [String.toList_append] at hc
  rcases List.mem_append.1 hc with hc | hc
  · exact ne_slash_of_isFileNameChar (hstem c hc)
  · rintro rfl
    exact hending hc

/-- The name of the key file is plain. -/
theorem SafeStem.keyName {c : Certificate} {stem : String} (h : SafeStem c stem) :
    Path.IsPlain (keyName stem) :=
  isPlain_append h.chars (by decide) (by decide)

theorem SafeStem.chainName {c : Certificate} {stem : String} (h : SafeStem c stem) :
    Path.IsPlain (chainName stem) :=
  isPlain_append h.chars (by decide) (by decide)

theorem keyName_ne_chainName (stem : String) : keyName stem ≠ chainName stem := by
  intro h
  have h := congrArg String.toList h
  rw [keyName, chainName, String.toList_append, String.toList_append] at h
  exact absurd (List.append_cancel_left h) (by decide)

-- ================================================================ storing

/-- Writes the text of a key and that of a chain. -/
def writePair (outDir stem keyText chainText : String) : Job Unit := do
  Job.writePrivate (Path.join outDir (keyName stem)) keyText
  Job.write (Path.join outDir (chainName stem)) chainText

/-- Stores a key and the chain that was issued for it in a directory. -/
def store (outDir : String) (key : KeyPair) (chain : Chain) : Job Unit := do
  Job.createDirectories outDir
  writePair outDir (stemOf chain.leaf) key.pem chain.pem

/-- The places of the two files in a directory. -/
def pairPlaces (directory : List String) (stem : String) : List (List String) :=
  [directory ++ [keyName stem], directory ++ [chainName stem]]

/-- Two files stand in a directory, with their texts; elsewhere nothing is new but
directories. -/
structure Stored (outDir : String) (t t' : FileTree) (stem keyText chainText : String)
    (directory : List String) : Prop where
  located : t'.locate outDir = .ok directory ∧ t'.node? directory = some .directory
  others : t.Extends (pairPlaces directory stem) t'
  distinct : (pairPlaces directory stem).Nodup
  key : t'.node? (directory ++ [keyName stem])
    = some (.file (Utf8.encode keyText) FileTree.privateMode)
  chain : ∃ mode, t'.node? (directory ++ [chainName stem])
    = some (.file (Utf8.encode chainText) mode)
  keyRead : t'.readText (Path.join outDir (keyName stem)) = .ok keyText
  chainRead : t'.readText (Path.join outDir (chainName stem)) = .ok chainText

/-- Nothing but directories is new outside of the two files of a directory. -/
def Contained (outDir : String) (t t' : FileTree) (stem : String) : Prop :=
  t.Extends [] t' ∨ ∃ directory, t'.locate outDir = .ok directory
    ∧ t.Extends (pairPlaces directory stem) t'

/-- A directory where the two names are not too long, and no directories have them. -/
structure HasRoom (t : FileTree) (directory : List String) (stem : String) : Prop where
  short : ∀ name ∈ [keyName stem, chainName stem], Utf8.size name ≤ FileTree.maxName
  free : ∀ place ∈ pairPlaces directory stem, t.node? place ≠ some .directory

/-- The directory is there or can be made, and it has room. -/
def CanStore (outDir : String) (t : FileTree) (stem : String) : Prop :=
  ∃ files directory, t.createDirectories outDir = (.ok (), files)
    ∧ files.locate outDir = .ok directory ∧ HasRoom files directory stem

theorem nodup_pairPlaces (directory : List String) (stem : String) :
    (pairPlaces directory stem).Nodup := by
  have hne : directory ++ [keyName stem] ≠ directory ++ [chainName stem] := fun h =>
    keyName_ne_chainName stem (List.singleton_inj.1 (List.append_cancel_left h))
  simp [pairPlaces, hne]

variable {m : Machine} {t : FileTree} {outDir stem name : String} {c : Certificate}
  {directory : List String}

/-- Where there is room, a name of the pair leads to a place without a directory. -/
theorem HasRoom.exists_place (hroom : HasRoom t directory stem)
    (hlocate : t.locate outDir = .ok directory) (hdirectory : t.node? directory = some .directory)
    (hname : name ∈ [keyName stem, chainName stem]) (hplain : Path.IsPlain name) :
    ∃ place, t.locate (Path.join outDir name) = .ok place ∧ t.node? place ≠ some .directory := by
  refine ⟨directory ++ [name], ?_, hroom.free _ ?_⟩
  · rw [FileTree.locate_join hlocate hdirectory hplain,
      if_neg (Nat.not_lt.2 (hroom.short name hname))]
  · exact List.mem_map_of_mem (f := fun name => directory ++ [name]) hname

/-- Writing the pair leaves both files, or fails and still has not gone beyond them;
where there is room it does not fail. -/
theorem runOn_writePair (hstem : SafeStem c stem) (hlocate : m.files.locate outDir = .ok directory)
    (hdirectory : m.files.node? directory = some .directory) (keyText chainText : String) :
    ∃ result files,
      (writePair outDir stem keyText chainText).runOn m = (result, { m with files })
        ∧ Contained outDir m.files files stem
        ∧ (HasRoom m.files directory stem → result = .ok ())
        ∧ (result = .ok () → Stored outDir m.files files stem keyText chainText directory) := by
  rcases Job.runOn_writePrivate (Path.join outDir (keyName stem)) keyText m with
    ⟨stop, hkey, hfault⟩ | ⟨place, files, hplace, hwrites, hkey⟩
  · refine ⟨_, _, Job.runOn_bind_of_error hkey, .inl (.refl _), fun hroom => ?_, nofun⟩
    obtain ⟨place, hplace, hfree⟩ :=
      hroom.exists_place hlocate hdirectory List.mem_cons_self hstem.keyName
    exact absurd (hfault place hplace) hfree
  · obtain rfl := FileTree.place_of_locate_join hlocate hdirectory hstem.keyName hplace
    have hlocate' := FileTree.locate_of_keeps hwrites.keepsDirectories hlocate
    have hdirectory' := hwrites.keepsDirectories _ hdirectory
    have hfirst : m.files.Extends (pairPlaces directory stem) files :=
      hwrites.extends.mono (by simp [pairPlaces])
    rcases Job.runOn_write (Path.join outDir (chainName stem)) chainText { m with files } with
      ⟨stop, hchain, hfault⟩ | ⟨below, mode, files', hbelow, hwrites', hchain⟩
    · refine ⟨_, _, (Job.runOn_bind_of_ok hkey).trans hchain, .inr ⟨directory, hlocate', hfirst⟩,
        fun hroom => ?_, nofun⟩
      have hroom' : HasRoom files directory stem :=
        ⟨hroom.short, fun place hplace => hwrites.keepsFree (hroom.free place hplace)⟩
      obtain ⟨place, hplace, hfree⟩ := hroom'.exists_place hlocate' hdirectory'
        (List.mem_cons_of_mem _ List.mem_cons_self) hstem.chainName
      exact absurd (hfault place hplace) hfree
    · obtain rfl := FileTree.place_of_locate_join hlocate' hdirectory' hstem.chainName hbelow
      have hkept := hwrites'.keepsDirectories
      have hdistinct := nodup_pairPlaces directory stem
      -- the second file is another one, so the first is still there
      have hother : directory ++ [keyName stem] ≠ directory ++ [chainName stem] :=
        List.rel_of_pairwise_cons hdistinct (List.mem_singleton_self _)
      have hkeyThere := (hwrites'.others _ hother).trans hwrites.written
      have hkeyPath := FileTree.locate_of_keeps hkept
        (FileTree.locate_of_keeps hwrites.keepsDirectories hplace)
      have hstored : Stored outDir m.files files' stem keyText chainText directory := {
        located := ⟨FileTree.locate_of_keeps hkept hlocate', hkept _ hdirectory'⟩
        others := hfirst.trans (hwrites'.extends.mono (by simp [pairPlaces]))
        distinct := hdistinct
        key := hkeyThere
        chain := ⟨mode, hwrites'.written⟩
        keyRead := FileTree.readText_of_file hkeyPath hkeyThere
        chainRead :=
          FileTree.readText_of_file (FileTree.locate_of_keeps hkept hbelow) hwrites'.written }
      exact ⟨_, _, (Job.runOn_bind_of_ok hkey).trans hchain,
        .inr ⟨directory, hstored.located.1, hstored.others⟩, fun _ => rfl, fun _ => hstored⟩

/-- Where the key can be written and the chain cannot, as its name is too long or that of a
directory, writing the pair fails and leaves the key. -/
theorem runOn_writePair_of_blocked (hstem : SafeStem c stem)
    (hlocate : m.files.locate outDir = .ok directory)
    (hdirectory : m.files.node? directory = some .directory)
    (hshort : Utf8.size (keyName stem) ≤ FileTree.maxName)
    (hfree : m.files.node? (directory ++ [keyName stem]) ≠ some .directory)
    (hblocked : FileTree.maxName < Utf8.size (chainName stem)
      ∨ m.files.node? (directory ++ [chainName stem]) = some .directory)
    (keyText chainText : String) :
    ∃ stop files,
      (writePair outDir stem keyText chainText).runOn m = (.error stop, { m with files })
        ∧ m.files.Writes files (directory ++ [keyName stem]) (Utf8.encode keyText)
          FileTree.privateMode := by
  have hplace : m.files.locate (Path.join outDir (keyName stem))
      = .ok (directory ++ [keyName stem]) := by
    rw [FileTree.locate_join hlocate hdirectory hstem.keyName, if_neg (Nat.not_lt.2 hshort)]
  rcases Job.runOn_writePrivate (Path.join outDir (keyName stem)) keyText m with
    ⟨stop, -, hfault⟩ | ⟨place, files, hkeyPlace, hwrites, hkey⟩
  · exact absurd (hfault _ hplace) hfree
  cases hplace.symm.trans hkeyPlace
  have hlocate' := FileTree.locate_of_keeps hwrites.keepsDirectories hlocate
  have hdirectory' := hwrites.keepsDirectories _ hdirectory
  rcases Job.runOn_write (Path.join outDir (chainName stem)) chainText { m with files } with
    ⟨stop, hchain, -⟩ | ⟨below, mode, files', hbelow, hwrites', -⟩
  · exact ⟨stop, files, (Job.runOn_bind_of_ok hkey).trans hchain, hwrites⟩
  · -- the chain is not written: its name leads nowhere, or to a directory that is still there
    obtain hlong | hthere := hblocked
    · rw [FileTree.locate_join hlocate' hdirectory' hstem.chainName, if_pos hlong] at hbelow
      cases hbelow
    · obtain rfl := FileTree.place_of_locate_join hlocate' hdirectory' hstem.chainName hbelow
      exact absurd (hwrites.keepsDirectories _ hthere) hwrites'.free

/-- Storing leaves both files, or fails and still has not gone beyond them; where the
pair can be stored it does not fail. -/
theorem runOn_store (outDir : String) (key : KeyPair) (chain : Chain) (m : Machine) :
    ∃ result files, (store outDir key chain).runOn m = (result, { m with files })
      ∧ Contained outDir m.files files (stemOf chain.leaf)
      ∧ (CanStore outDir m.files (stemOf chain.leaf) → result = .ok ())
      ∧ (result = .ok () → ∃ directory,
        Stored outDir m.files files (stemOf chain.leaf) key.pem chain.pem directory) := by
  obtain ⟨files, hfiles, hmade, ⟨stop, hrun, hfailed⟩ | ⟨directory, hrun, hlocate, hdirectory⟩⟩ :=
    Job.runOn_createDirectories outDir m
  · refine ⟨_, _, Job.runOn_bind_of_error hrun, .inl hmade, ?_, nofun⟩
    rintro ⟨files', directory, hcreate, -, -⟩
    rw [hcreate] at hfailed
    exact absurd rfl hfailed
  · obtain ⟨result, files', hpair, hcontained, hroom, hstored⟩ :=
      runOn_writePair (m := { m with files }) (safeStem_stemOf chain.leaf) hlocate hdirectory
        key.pem chain.pem
    have hmore : ∀ places, m.files.Extends places files := fun places => hmade.mono (by simp)
    refine ⟨result, files', (Job.runOn_bind_of_ok hrun).trans hpair, ?_, ?_, fun hok => ?_⟩
    · rcases hcontained with hnone | ⟨place, hplace, hsome⟩
      · exact .inl (hmade.trans hnone)
      · exact .inr ⟨place, hplace, (hmore _).trans hsome⟩
    · rintro ⟨other, place, hcreate, hplace, hother⟩
      rw [hcreate] at hfiles
      subst hfiles
      cases hlocate.symm.trans hplace
      exact hroom hother
    · have h := hstored hok
      exact ⟨directory, { h with others := (hmore _).trans h.others }⟩

-- ============================================================= requesting

section

variable [Signatures] (o : CommandLine.RequestOptions) (network : Client.Network) (draw : Bytes)

/-- The client that the options make with a token. -/
def clientOf (token : Token) : Client := ⟨o.settings, token⟩

/-- A key that is made and the chain that is issued for it. -/
def Obtains (key : KeyPair) (chain : Chain) : Prop :=
  ∃ token csr, Token.ofSecret (Utf8.encode o.token) = .ok token
    ∧ (clientOf o token).prepare o.subject draw = .ok (key, csr)
    ∧ ((clientOf o token).sign network csr).result = .ok chain

/-- Why there may be none. -/
inductive Refused : Prop
  | token {failure : Failure} (h : Token.ofSecret (Utf8.encode o.token) = .error failure)
  | subject {failure : Failure} (h : Name.Written.parse o.subject = .error failure)
  | names {fault : ContentFault} (h : AlternativeName.ofTexts o.settings.names = .error fault)
  | request {token : Token} {halt : Halt}
      (h : (clientOf o token).prepare o.subject draw = .error halt)
  | exchange {token : Token} {key : KeyPair} {csr : SigningRequest} {failure : Failure}
      (htoken : Token.ofSecret (Utf8.encode o.token) = .ok token)
      (hprepare : (clientOf o token).prepare o.subject draw = .ok (key, csr))
      (h : ((clientOf o token).sign network csr).result = .error failure)

variable {o network draw} {key : KeyPair} {chain : Chain}

/-- A command that obtains a chain is not refused. -/
theorem Obtains.not_refused (h : Obtains o network draw key chain) :
    ¬Refused o network draw := by
  obtain ⟨token, csr, htoken, hprepare, hsign⟩ := h
  intro hrefused
  cases hrefused with
  | token h => cases h.symm.trans htoken
  | subject h =>
    obtain ⟨halt, h⟩ := Client.prepare_of_subject (clientOf o token) draw h
    cases h.symm.trans hprepare
  | names h =>
    obtain ⟨halt, h⟩ := Client.prepare_of_names (c := clientOf o token) o.subject draw h
    cases h.symm.trans hprepare
  | request h => cases h.symm.trans hprepare
  | exchange htoken' hprepare' h =>
    cases htoken.symm.trans htoken'
    cases hprepare.symm.trans hprepare'
    cases h.symm.trans hsign

theorem Obtains.unique {key' : KeyPair} {chain' : Chain} (h : Obtains o network draw key chain)
    (h' : Obtains o network draw key' chain') : key' = key ∧ chain' = chain := by
  obtain ⟨token, csr, htoken, hprepare, hsign⟩ := h
  obtain ⟨token', csr', htoken', hprepare', hsign'⟩ := h'
  cases htoken.symm.trans htoken'
  cases hprepare.symm.trans hprepare'
  cases hsign.symm.trans hsign'
  exact ⟨rfl, rfl⟩

/-- The chain loads with the key it was obtained for. -/
theorem Obtains.ofPem (hsized : Signatures.Sized) (h : Obtains o network draw key chain) :
    Authority.ofPem chain.pem key.pem = .ok ⟨chain, key, o.settings.algorithm⟩ := by
  obtain ⟨token, csr, -, hprepare, hsign⟩ := h
  exact Client.ofPem_of_issue hsized hprepare hsign

/-- Until there is a key with a chain, things are only noted. -/
theorem runOn_request (o : CommandLine.RequestOptions) (network : Client.Network) (draw : Bytes)
    (m : Machine) :
    ∃ log, (Refused o network draw
        ∧ ∃ stop, (request o network draw).runOn m = (.error stop, { m with log }))
      ∨ ∃ key chain, Obtains o network draw key chain
        ∧ (request o network draw).runOn m = (store o.outDir key chain).runOn { m with log } := by
  unfold request
  cases htoken : Token.ofSecret (Utf8.encode o.token) with
  | error failure => exact ⟨m.log, .inl ⟨.token htoken, _, Job.runOn_bind_of_error rfl⟩⟩
  | ok token =>
    rw [Job.runOn_bind_of_ok (Job.runOn_expect_ok _ _ _ _)]
    dsimp only
    rw [show (⟨o.settings, token⟩ : Client) = clientOf o token from rfl,
      Job.runOn_bind_of_ok (Job.runOn_note _ _)]
    cases hprepare : (clientOf o token).prepare o.subject draw with
    | error halt =>
      have hissue := Client.issue_of_prepare_error network hprepare
      obtain ⟨stop, hstop⟩ := Job.runOn_expectOrCrash_error (.requestFrom o.settings.host) halt
        { m with log := m.log ++ (clientOf o token).notices }
      rw [← hissue] at hstop
      exact ⟨_, .inl ⟨.request hprepare, stop, Job.runOn_bind_of_error hstop⟩⟩
    | ok made =>
      obtain ⟨key, csr⟩ := made
      obtain ⟨outcome, hissue, hresult⟩ := Client.issue_of_prepare network hprepare
      have hrun := Job.runOn_expectOrCrash_ok (.requestFrom o.settings.host)
        (key, outcome) { m with log := m.log ++ (clientOf o token).notices }
      rw [← hissue] at hrun
      rw [Job.runOn_bind_of_ok hrun]
      dsimp only
      rw [Job.runOn_bind_of_ok (Job.runOn_note _ _)]
      cases hsign : ((clientOf o token).sign network csr).result with
      | error failure =>
        rw [hresult, hsign]
        exact ⟨_, .inl ⟨.exchange htoken hprepare hsign, _, Job.runOn_bind_of_error rfl⟩⟩
      | ok chain =>
        rw [hresult, hsign, Job.runOn_bind_of_ok (Job.runOn_expect_ok _ _ _ _)]
        exact ⟨_, .inr ⟨key, chain, ⟨token, csr, htoken, hprepare, hsign⟩, rfl⟩⟩

/-- A command that is not refused comes to what storing comes to. -/
theorem runOn_of_obtains (h : Obtains o network draw key chain) (m : Machine) :
    ∃ result m', (request o network draw).runOn m = (result, m')
      ∧ Contained o.outDir m.files m'.files (stemOf chain.leaf)
      ∧ (CanStore o.outDir m.files (stemOf chain.leaf) → result = .ok ())
      ∧ (result = .ok () → ∃ directory,
        Stored o.outDir m.files m'.files (stemOf chain.leaf) key.pem chain.pem directory) := by
  obtain ⟨log, ⟨hrefused, -⟩ | ⟨key', chain', hobtains, hrun⟩⟩ := runOn_request o network draw m
  · exact absurd hrefused h.not_refused
  · obtain ⟨rfl, rfl⟩ := h.unique hobtains
    obtain ⟨result, files, hstore, hends⟩ := runOn_store o.outDir key' chain' { m with log }
    exact ⟨result, _, hrun.trans hstore, hends⟩

/-- A command that is refused fails and leaves the files as they are. -/
theorem runOn_of_refused (h : Refused o network draw) (m : Machine) :
    ∃ stop log, (request o network draw).runOn m = (.error stop, { m with log }) := by
  obtain ⟨log, ⟨-, stop, hrun⟩ | ⟨key, chain, hobtains, -⟩⟩ := runOn_request o network draw m
  · exact ⟨stop, log, hrun⟩
  · exact absurd h hobtains.not_refused

/-- A command is refused or obtains a chain. -/
theorem refused_or_obtains (o : CommandLine.RequestOptions) (network : Client.Network)
    (draw : Bytes) :
    Refused o network draw ∨ ∃ key chain, Obtains o network draw key chain := by
  obtain ⟨log, ⟨hrefused, -⟩ | ⟨key, chain, hobtains, -⟩⟩ :=
    runOn_request o network draw ⟨{}, []⟩
  · exact .inl hrefused
  · exact .inr ⟨key, chain, hobtains⟩

end

/-- A request that is refused leaves the files as they are.  One that succeeds has left
two files in its directory, which load with the chain that was issued; their names
are made of what is harmless in the common name, so whatever certificate a peer sends,
no other file is touched, also when the pair could not be written.  Where the key can be
written and the chain cannot, the command fails and leaves the key without its chain
(`runOn_writePair_of_blocked`). -/
theorem request_files (o : CommandLine.RequestOptions) (network : Client.Network) (draw : Bytes)
    (m : Machine) :
    (Refused o network draw →
        ∃ stop log, (request o network draw).runOn m = (.error stop, { m with log }))
      ∧ (∀ m', (request o network draw).runOn m = (.ok (), m') →
        ∃ key chain directory, Obtains o network draw key chain
          ∧ SafeStem chain.leaf (stemOf chain.leaf)
          ∧ Stored o.outDir m.files m'.files (stemOf chain.leaf) key.pem chain.pem directory
          ∧ Authority.ofPem chain.pem key.pem = .ok ⟨chain, key, o.settings.algorithm⟩)
      ∧ (∀ result m', (request o network draw).runOn m = (result, m') →
        m'.files = m.files ∨ ∃ key chain, Obtains o network draw key chain
          ∧ SafeStem chain.leaf (stemOf chain.leaf)
          ∧ Contained o.outDir m.files m'.files (stemOf chain.leaf))
      ∧ (∀ key chain, Obtains o network draw key chain →
        CanStore o.outDir m.files (stemOf chain.leaf) →
          ∃ m', (request o network draw).runOn m = (.ok (), m')) := by
  refine ⟨fun hrefused => runOn_of_refused hrefused m, fun m' hrun => ?_,
    fun result m' hrun => ?_, fun key chain hobtains hroom => ?_⟩
  · rcases refused_or_obtains o network draw with hrefused | ⟨key, chain, hobtains⟩
    · obtain ⟨stop, log, hstop⟩ := runOn_of_refused hrefused m
      cases hrun.symm.trans hstop
    · obtain ⟨result, m'', hends, -, -, hstored⟩ := runOn_of_obtains hobtains m
      cases hrun.symm.trans hends
      obtain ⟨directory, hstored⟩ := hstored rfl
      exact ⟨key, chain, directory, hobtains, safeStem_stemOf _, hstored,
        hobtains.ofPem Standard.sized⟩
  · rcases refused_or_obtains o network draw with hrefused | ⟨key, chain, hobtains⟩
    · obtain ⟨stop, log, hstop⟩ := runOn_of_refused hrefused m
      cases hrun.symm.trans hstop
      exact .inl rfl
    · obtain ⟨result', m'', hends, hcontained, -⟩ := runOn_of_obtains hobtains m
      cases hrun.symm.trans hends
      exact .inr ⟨key, chain, hobtains, safeStem_stemOf _, hcontained⟩
  · obtain ⟨result, m', hends, -, hcan, -⟩ := runOn_of_obtains hobtains m
    cases hcan hroom
    exact ⟨m', hends⟩

def RequestOptions.small (token : String) : CommandLine.RequestOptions where
  token := token
  subject := "CN=h"
  settings := { host := "h", algorithm := .ed25519 }
  outDir := "out"

def smallNetwork (token : Token) : Client.Network :=
  Client.holderNetwork token .small Certificate.small

/-- The small certificate is issued for the small key. -/
theorem obtains_small :
    ∃ token, Obtains (RequestOptions.small "t") (smallNetwork token) [7] Authority.small.key
      ⟨.small, [.small], by decide⟩ := by
  obtain ⟨token, htoken⟩ : ∃ token, Token.ofSecret (Utf8.encode "t") = .ok token :=
    exists_eq_ok (by decide +kernel)
  have hdn : Name.Written.parse "CN=h" = .ok [Entries.ofText [2, 5, 4, 3] "h"] := by
    decide +kernel
  have hsize : ∀ text, SigningRequest.text? [Entries.ofText [2, 5, 4, 3] "h"] []
      Authority.small.key = some text → Utf8.size text ≤ Limits.certificateSize :=
    SigningRequest.size_text?_le (by decide +kernel)
  obtain ⟨csr, hcsr, -⟩ := SigningRequest.exists_generate hdn (List.forall_mem_nil _) hsize
  have hprepare := Client.prepare_of_generate (clientOf (RequestOptions.small "t") token) hcsr
  have hkey : Certificate.small.publicKey = csr.publicKey := by
    rw [SigningRequest.publicKey_of_generate hcsr]
    decide +kernel
  have hsign := Client.sign_holder (c := clientOf (RequestOptions.small "t") token)
    (P := Chain.small) Client.isServer_small Certificate.commonName_small
    Certificate.verifySignedBy_small hkey (by decide)
  exact ⟨token, token, csr, htoken, hprepare, hsign⟩

theorem stemOf_small : stemOf Certificate.small = "h" := by
  rw [stemOf, Certificate.commonName_small]
  decide +kernel

theorem canStore_small : CanStore "out" {} (stemOf Certificate.small) := by
  rw [stemOf_small]
  refine ⟨⟨[(["out"], .directory)]⟩, ["out"], rfl, rfl, ?_, ?_⟩
  · decide +kernel
  · decide +kernel

/-- With a token, the pair is stored in a directory that is made for it; with an empty
one, nothing is. -/
theorem request_files_small :
    ∃ network key chain,
      (Obtains (RequestOptions.small "t") network [7] key chain
        ∧ CanStore "out" {} (stemOf chain.leaf)
        ∧ ∃ m', (request (RequestOptions.small "t") network [7]).runOn ⟨{}, []⟩ = (.ok (), m')
          ∧ (m'.files = {} ∨ Contained "out" {} m'.files "h")
          ∧ (∃ directory, Stored "out" {} m'.files "h" key.pem chain.pem directory)
          ∧ Authority.ofPem chain.pem key.pem = .ok ⟨chain, key, .ed25519⟩)
      ∧ Refused (RequestOptions.small "") network [7]
      ∧ ∃ stop log,
        (request (RequestOptions.small "") network [7]).runOn ⟨{}, []⟩ = (.error stop, ⟨{}, log⟩) := by
  obtain ⟨token, hobtains⟩ := obtains_small
  obtain ⟨-, hpair, hnothing, hcan⟩ :=
    request_files (RequestOptions.small "t") (smallNetwork token) [7] ⟨{}, []⟩
  have hrefused : Refused (RequestOptions.small "") (smallNetwork token) [7] := .token rfl
  obtain ⟨m', hrun⟩ := hcan _ _ hobtains canStore_small
  refine ⟨_, _, _, ⟨hobtains, canStore_small, m', hrun, ?_, ?_⟩, hrefused,
    (request_files _ _ _ _).1 hrefused⟩
  · refine (hnothing _ m' hrun).imp id ?_
    rintro ⟨key, chain, hother, -, hcontained⟩
    obtain ⟨rfl, rfl⟩ := hobtains.unique hother
    rwa [← stemOf_small]
  · obtain ⟨key, chain, directory, hother, -, hstored, hloads⟩ := hpair m' hrun
    obtain ⟨rfl, rfl⟩ := hobtains.unique hother
    rw [← stemOf_small]
    exact ⟨⟨directory, hstored⟩, hloads⟩

end Enrollment.Command
