/-
Bytes that ride along with what is signed.

A certificate and a request are read from the front of their bytes, and nobody asks whether
something is left: neither inside the sequence nor behind it (`Certificate.exists_refilled`,
`SigningRequest.exists_refilled`).  The signature is not over what is left, so what a client
accepts it also accepts with any other bytes in these two places (`Client.sign_refilled`), and
its command stores them (`Command.runOn_refilled`).  Only where both are empty do certificates
that differ differ in what is signed or in the signature (`remainders_unchecked`).
-/
import Enrollment.Proofs.Certificate.Layout
import Enrollment.Proofs.Command.Request

namespace Enrollment

open Der

namespace Signed.Layout

variable (l : Layout) (inside behind : Bytes)

theorem length_contents_le : l.contents.length ≤ l.bytes.length := by
  rw [bytes, List.length_append, List.length_append]
  omega

variable {inside behind} in
/-- The header of a sequence takes ten bytes at most. -/
theorem length_refill_le (h : l.bytes.length + inside.length < 2 ^ 64) :
    (l.refill inside behind).bytes.length
      ≤ l.bytes.length + inside.length + behind.length + 10 := by
  have hwhole := l.length_contents_le
  have hcontents :
      (l.refill inside behind).contents.length ≤ l.contents.length + inside.length := by
    show (l.part ++ (l.algorithm ++ (l.signature ++ inside))).length ≤ _
    simp only [contents, List.length_append]
    omega
  have hheader : (l.refill inside behind).header.length ≤ 10 := by
    have hdigits : Bytes.digitCount (l.refill inside behind).contents.length ≤ 8 :=
      Bytes.digitCount_le_eight (by omega)
    show (writeLength (l.refill inside behind).contents.length).length + 1 ≤ 10
    unfold writeLength
    split
    · exact Nat.le_add_left 2 8
    · rw [List.length_cons, Bytes.length_minimal]
      omega
  have hbytes : (l.refill inside behind).bytes.length = (l.refill inside behind).header.length
      + ((l.refill inside behind).contents.length + behind.length) := by
    rw [bytes, List.length_append, List.length_append]
    rfl
  omega

variable {l inside behind} in
/-- Other bytes behind make it another layout. -/
theorem refill_ne (h : behind ≠ l.behind) : l.refill inside behind ≠ l := fun heq =>
  h (congrArg Layout.behind heq)

/-- The bytes that tell one exactly laid out thing from another. -/
def core : Bytes × Bytes × Bytes × Bytes := (l.header, l.part, l.algorithm, l.signature)

variable {l} in
/-- What is laid out exactly is told apart by its header and its three elements. -/
theorem Exact.eq_of_core {l' : Layout} (h : l.Exact) (h' : l'.Exact) (hcore : l.core = l'.core) :
    l = l' := by
  obtain ⟨header, part, algorithm, signature, inside, behind⟩ := l
  obtain ⟨header', part', algorithm', signature', inside', behind'⟩ := l'
  obtain ⟨rfl, rfl⟩ := h
  obtain ⟨rfl, rfl⟩ := h'
  cases hcore
  rfl

end Signed.Layout

-- ============================================================ certificates

namespace Certificate

variable {c : Certificate} {l : Signed.Layout}

/-- Two certificates are told apart by their layouts. -/
theorem Laid.eq_iff {c' : Certificate} {l' : Signed.Layout} (h : c.Laid l) (h' : c'.Laid l') :
    c = c' ↔ l = l' := by
  constructor
  · rintro rfl
    exact (existsUnique_laid c).unique h h'
  · rintro rfl
    exact ext_der (h.bytes.symm.trans h'.bytes)

/-- Accepted are the byte strings that are laid out as certificates and not too large. -/
theorem exists_ofDer_iff {der : Bytes} :
    (∃ c, ofDer der = .ok c)
      ↔ der.length ≤ Limits.certificateSize
        ∧ ∃ (l : Signed.Layout) (f : Fields), l.Reads format f ∧ l.bytes = der := by
  constructor
  · rintro ⟨c, h⟩
    obtain rfl := der_of_ofDer h
    obtain ⟨l, hl, -⟩ := existsUnique_laid c
    exact ⟨c.der_length_le, l, c.fields, hl.reads, hl.bytes⟩
  · rintro ⟨hlength, l, f, hreads, rfl⟩
    obtain ⟨c, hc, -⟩ := exists_laid hreads hlength
    exact ⟨c, hc⟩

/-- A certificate is accepted with anything inside its sequence and behind it. -/
theorem exists_refilled (h : c.Laid l) {inside behind : Bytes}
    (hlength : (l.refill inside behind).bytes.length ≤ Limits.certificateSize) :
    ∃ c', ofDer (l.refill inside behind).bytes = .ok c' ∧ c'.fields = c.fields
      ∧ c'.Laid (l.refill inside behind) := by
  have hcontents : (l.refill inside behind).contents.length < 2 ^ 64 :=
    Nat.lt_of_le_of_lt (Nat.le_trans (Signed.Layout.length_contents_le _) hlength) (by decide)
  exact exists_laid (h.reads.refill hcontents) hlength

end Certificate

-- ================================================================ requests

namespace SigningRequest

variable {r : SigningRequest} {l : Signed.Layout}

/-- Accepted are the texts whose first block holds what is laid out as a request. -/
theorem exists_ofPem_iff {text : String} :
    (∃ r, ofPem text = .ok r)
      ↔ Utf8.size text ≤ Limits.certificateSize
        ∧ ∃ (block : Pem) (l : Signed.Layout) (f : Fields), Pem.parse text = .ok block
          ∧ block.tag ∈ blockTags ∧ l.Reads format f ∧ l.bytes = block.contents := by
  constructor
  · rintro ⟨r, h⟩
    obtain ⟨rfl, block, hparse, htag, hcontents⟩ := ofPem_eq_ok_iff.1 h
    obtain ⟨l, hl, -⟩ := existsUnique_laid r
    exact ⟨r.pem_size_le, block, l, r.fields, hparse, htag, hl.reads, hl.bytes.trans hcontents.symm⟩
  · rintro ⟨hsize, block, l, f, hparse, htag, hreads, hbytes⟩
    have hread : (Fields.read block.contents).map (·.1) = some f := hbytes ▸ hreads.map_read
    exact ⟨⟨text, block.contents, f, hsize, hread⟩,
      ofPem_eq_ok_iff.2 ⟨rfl, block, hparse, htag, rfl⟩⟩

/-- A request is accepted with anything inside its sequence and behind it. -/
theorem exists_refilled (h : r.Laid l) {inside behind : Bytes}
    (hlength : 4 * (l.refill inside behind).bytes.length + 82 ≤ Limits.certificateSize) :
    ∃ text r', ofPem text = .ok r' ∧ r'.fields = r.fields ∧ r'.Laid (l.refill inside behind) := by
  have hcontents : (l.refill inside behind).contents.length < 2 ^ 64 := by
    have hle := (l.refill inside behind).length_contents_le
    rw [Limits.certificateSize] at hlength
    omega
  exact ⟨_, exists_laid (h.reads.refill hcontents) hlength⟩

end SigningRequest

-- ================================================================== clients

section

variable [Signatures] {l : Signed.Layout} {inside behind : Bytes}

/-- What a client accepts, it accepts from another peer with anything inside the sequence
of the first certificate and behind it. -/
theorem Client.sign_refilled {c : Client} {network : Client.Network} {csr : SigningRequest}
    {chain : Chain} (h : (c.sign network csr).result = .ok chain) (hlaid : chain.leaf.Laid l)
    (hlength : (l.refill inside behind).bytes.length ≤ Limits.certificateSize) :
    ∃ network' chain', (c.sign network' csr).result = .ok chain' ∧ chain'.issuers = chain.issuers
      ∧ chain'.leaf.fields = chain.leaf.fields ∧ chain'.leaf.Laid (l.refill inside behind) := by
  obtain ⟨presented, answer, P, response, body, hserver, -, hcapture, -, -, hjudge⟩ := sign_eq_ok h
  obtain ⟨-, hname⟩ := capture_eq_ok hcapture
  obtain ⟨-, -, L, -, -, -, -, hsigned, hkey, hprepend⟩ := judge_eq_ok hjudge
  obtain ⟨hroom, rfl, hissuers⟩ := Chain.prepend_eq_ok_iff.1 hprepend
  obtain ⟨L', -, hfields, hlaid'⟩ := Certificate.exists_refilled hlaid hlength
  -- only the fields of the certificate were looked at
  have hsigned' : L'.verifySignedBy P.leaf = .ok () := by
    rw [Certificate.verifySignedBy, hfields]
    exact hsigned
  have hkey' : L'.publicKey = csr.publicKey := by
    rw [Certificate.publicKey, hfields]
    exact hkey
  exact ⟨_, _, sign_holder hserver hname hsigned' hkey' hroom, hissuers.symm, hfields, hlaid'⟩

namespace Command

variable {o : CommandLine.RequestOptions} {network : Client.Network} {draw : Bytes}
  {key : KeyPair} {chain : Chain}

/-- So does a request command, for the same key. -/
theorem Obtains.refilled (h : Obtains o network draw key chain) (hlaid : chain.leaf.Laid l)
    (hlength : (l.refill inside behind).bytes.length ≤ Limits.certificateSize) :
    ∃ network' chain', Obtains o network' draw key chain' ∧ chain'.issuers = chain.issuers
      ∧ chain'.leaf.fields = chain.leaf.fields ∧ chain'.leaf.Laid (l.refill inside behind) := by
  obtain ⟨token, csr, htoken, hprepare, hsign⟩ := h
  obtain ⟨network', chain', hsign', hrest⟩ := Client.sign_refilled hsign hlaid hlength
  exact ⟨network', chain', ⟨token, csr, htoken, hprepare, hsign'⟩, hrest⟩

omit [Signatures] in
theorem stemOf_congr {c c' : Certificate} (h : c'.fields = c.fields) : stemOf c' = stemOf c := by
  unfold stemOf Certificate.commonName
  rw [h]

/-- Where the pair can be stored at all, it is stored with whatever rides along. -/
theorem runOn_refilled (h : Obtains o network draw key chain) (hlaid : chain.leaf.Laid l)
    (hlength : (l.refill inside behind).bytes.length ≤ Limits.certificateSize) {m : Machine}
    (hroom : CanStore o.outDir m.files (stemOf chain.leaf)) :
    ∃ (network' : Client.Network) (chain' : Chain) (m' : Machine) (directory : List String),
      (request o network' draw).runOn m = (.ok (), m')
        ∧ Stored o.outDir m.files m'.files (stemOf chain.leaf) key.pem chain'.pem directory
        ∧ chain'.issuers = chain.issuers ∧ chain'.leaf.Laid (l.refill inside behind) := by
  obtain ⟨network', chain', hobtains, hissuers, hfields, hlaid'⟩ := h.refilled hlaid hlength
  obtain ⟨result, m', hrun, -, hcan, hstored⟩ := runOn_of_obtains hobtains m
  rw [stemOf_congr hfields] at hcan hstored
  obtain rfl := hcan hroom
  obtain ⟨directory, hstored⟩ := hstored rfl
  exact ⟨network', chain', m', directory, hrun, hstored, hissuers, hlaid'⟩

end Command

end

-- ============================================================== remainders

/-- A certificate has one layout.  What is signed is its first element, and it is accepted
as well with anything inside its sequence and behind it, with the same fields. -/
structure Certificate.Lenient (c : Certificate) (l : Signed.Layout) : Prop where
  laid : c.Laid l
  unique : ∀ l', c.Laid l' → l' = l
  content : c.fields.signed.content = l.part
  refilled : ∀ inside behind, (l.refill inside behind).bytes.length ≤ 16384 →
    ∃ c', ofDer (l.refill inside behind).bytes = .ok c' ∧ c'.fields = c.fields
      ∧ c'.Laid (l.refill inside behind)

/-- So has a request, whose text must have room for what is added. -/
structure SigningRequest.Lenient (r : SigningRequest) (l : Signed.Layout) : Prop where
  laid : r.Laid l
  unique : ∀ l', r.Laid l' → l' = l
  content : r.fields.signed.content = l.part
  refilled : ∀ inside behind, 4 * (l.refill inside behind).bytes.length + 82 ≤ 16384 →
    ∃ text r', ofPem text = .ok r' ∧ r'.fields = r.fields ∧ r'.Laid (l.refill inside behind)

/-- Every certificate has such a layout. -/
theorem Certificate.exists_lenient (c : Certificate) : ∃ l, c.Lenient l := by
  obtain ⟨l, hl, hunique⟩ := existsUnique_laid c
  exact ⟨l, hl, hunique, hl.reads.signed.1, fun _ _ hlength => exists_refilled hl hlength⟩

/-- Every request has such a layout. -/
theorem SigningRequest.exists_lenient (r : SigningRequest) : ∃ l, r.Lenient l := by
  obtain ⟨l, hl, hunique⟩ := existsUnique_laid r
  exact ⟨l, hl, hunique, hl.reads.signed.1, fun _ _ hlength => exists_refilled hl hlength⟩

/-- Accepted as a certificate, and as a request in a text, are just the bytes that are laid
out as one, with anything left inside the sequence and anything behind it.  So two
certificates differ in the header or in one of the three elements where nothing is left in
either, and otherwise they may differ in what is left alone; and what is left is neither
checked nor taken away when a client hands out a certificate and its command stores it. -/
theorem remainders_unchecked [Signatures] :
    ((∀ der, (∃ c, Certificate.ofDer der = .ok c)
          ↔ der.length ≤ 16384 ∧ ∃ (l : Signed.Layout) (f : Certificate.Fields),
            l.Reads Certificate.format f ∧ l.bytes = der)
        ∧ ∀ text, (∃ r, SigningRequest.ofPem text = .ok r)
          ↔ Utf8.size text ≤ 16384 ∧ ∃ (block : Pem) (l : Signed.Layout)
            (f : SigningRequest.Fields), Pem.parse text = .ok block
              ∧ block.tag ∈ SigningRequest.blockTags
              ∧ l.Reads SigningRequest.format f ∧ l.bytes = block.contents)
      ∧ ((∀ c : Certificate, ∃ l, c.Lenient l) ∧ ∀ r : SigningRequest, ∃ l, r.Lenient l)
      ∧ (∀ (c c' : Certificate) (l l' : Signed.Layout), c.Laid l → c'.Laid l' →
        (c = c' ↔ l = l') ∧ (l.Exact → l'.Exact → (c = c' ↔ l.core = l'.core)))
      ∧ (∀ (c : Client) (network : Client.Network) (csr : SigningRequest) (chain : Chain)
          (l : Signed.Layout) (inside behind : Bytes),
        (c.sign network csr).result = .ok chain → chain.leaf.Laid l →
        (l.refill inside behind).bytes.length ≤ 16384 →
          ∃ network' chain', (c.sign network' csr).result = .ok chain'
            ∧ chain'.issuers = chain.issuers ∧ chain'.leaf.fields = chain.leaf.fields
            ∧ chain'.leaf.Laid (l.refill inside behind))
      ∧ ∀ (o : CommandLine.RequestOptions) (network : Client.Network) (draw : Bytes)
          (key : KeyPair) (chain : Chain) (l : Signed.Layout) (inside behind : Bytes)
          (m : Command.Machine),
        Command.Obtains o network draw key chain → chain.leaf.Laid l →
        (l.refill inside behind).bytes.length ≤ 16384 →
        Command.CanStore o.outDir m.files (Command.stemOf chain.leaf) →
          ∃ (network' : Client.Network) (chain' : Chain) (m' : Command.Machine)
            (directory : List String),
            (Command.request o network' draw).runOn m = (.ok (), m')
              ∧ Command.Stored o.outDir m.files m'.files (Command.stemOf chain.leaf) key.pem
                chain'.pem directory
              ∧ chain'.issuers = chain.issuers ∧ chain'.leaf.Laid (l.refill inside behind) := by
  refine ⟨⟨fun der => Certificate.exists_ofDer_iff, fun text => SigningRequest.exists_ofPem_iff⟩,
    ⟨Certificate.exists_lenient, SigningRequest.exists_lenient⟩, ?_, ?_, ?_⟩
  · intro c c' l l' h h'
    refine ⟨h.eq_iff h', fun hexact hexact' => ?_⟩
    rw [h.eq_iff h']
    constructor
    · intro heq
      rw [heq]
    · exact hexact.eq_of_core hexact'
  · intro c network csr chain l inside behind hsign hlaid hlength
    exact Client.sign_refilled hsign hlaid hlength
  · intro o network draw key chain l inside behind m hobtains hlaid hlength hroom
    exact Command.runOn_refilled hobtains hlaid hlength hroom

-- =========================================================== small samples

/-- With a null element inside its sequence and a byte behind it, the small certificate is
another one with the same fields, which is stored for the small key; and the small request
is another one as well. -/
theorem remainders_unchecked_small :
    (∃ (l : Signed.Layout) (c' : Certificate),
      Certificate.small.Laid l ∧ c'.Laid (l.refill [5, 0] [0])
        ∧ c'.fields = Certificate.small.fields ∧ c' ≠ .small
        ∧ ∃ (network : Client.Network) (chain : Chain) (m : Command.Machine)
            (directory : List String),
          (Command.request (Command.RequestOptions.small "t") network [7]).runOn ⟨{}, []⟩
              = (.ok (), m)
            ∧ Command.Stored "out" {} m.files (Command.stemOf Certificate.small)
              Authority.small.key.pem chain.pem directory
            ∧ chain.leaf.Laid (l.refill [5, 0] [0]))
      ∧ ∃ (l : Signed.Layout) (r' : SigningRequest),
        SigningRequest.edwards.Laid l ∧ r'.Laid (l.refill [5, 0] [0])
          ∧ r'.fields = SigningRequest.edwards.fields ∧ r' ≠ .edwards := by
  obtain ⟨-, ⟨hcertificates, hrequests⟩, -, -, hstored⟩ := remainders_unchecked
  constructor
  · obtain ⟨l, hl⟩ := hcertificates .small
    have hsmall : l.bytes.length = 318 := by
      rw [hl.laid.bytes]
      decide +kernel
    have hlength : (l.refill [5, 0] [0]).bytes.length ≤ 16384 := by
      have hle : (l.refill [5, 0] [0]).bytes.length ≤ l.bytes.length + 2 + 1 + 10 :=
        l.length_refill_le (by rw [hsmall]; decide)
      rw [hsmall] at hle
      exact Nat.le_trans hle (Nat.le_of_ble_eq_true rfl)
    have hbehind : l.behind = [] := hl.laid.behind_eq (by decide +kernel)
    obtain ⟨c', -, hfields, hc'⟩ := hl.refilled _ _ hlength
    obtain ⟨token, hobtains⟩ := Command.obtains_small
    obtain ⟨network, chain, m, directory, hrun, hstores, -, hlaid⟩ :=
      hstored _ _ _ _ _ l _ _ ⟨{}, []⟩ hobtains hl.laid hlength Command.canStore_small
    have hne : l.refill [5, 0] [0] ≠ l := Signed.Layout.refill_ne (by rw [hbehind]; decide)
    have hother : c' ≠ .small := by
      rintro rfl
      exact hne (hl.unique _ hc')
    exact ⟨l, c', hl.laid, hc', hfields, hother, network, chain, m, directory, hrun, hstores,
      hlaid⟩
  · obtain ⟨l, hl⟩ := hrequests .edwards
    have hsmall : l.bytes.length ≤ 1000 := by
      rw [hl.laid.bytes]
      decide +kernel
    have hlength : 4 * (l.refill [5, 0] [0]).bytes.length + 82 ≤ 16384 := by
      have hle : (l.refill [5, 0] [0]).bytes.length ≤ l.bytes.length + 2 + 1 + 10 :=
        l.length_refill_le (Nat.lt_of_le_of_lt (Nat.add_le_add_right hsmall 2) (by decide))
      omega
    have hbehind : l.behind = [] := hl.laid.behind_eq (by decide +kernel)
    obtain ⟨-, r', -, hfields, hr'⟩ := hl.refilled _ _ hlength
    have hne : l.refill [5, 0] [0] ≠ l := Signed.Layout.refill_ne (by rw [hbehind]; decide)
    have hother : r' ≠ .edwards := by
      rintro rfl
      exact hne (hl.unique _ hr')
    exact ⟨l, r', hl.laid, hr', hfields, hother⟩

/-- The small certificate with a byte behind it. -/
def Certificate.padded : Certificate :=
  .ofBytes (smallDer ++ [0]) (by decide +kernel) (by decide +kernel)

/-- The small request with a byte behind it. -/
def SigningRequest.padded : SigningRequest :=
  .ofDer (edwardsDer ++ [0]) (by decide +kernel) (by decide +kernel)

theorem Certificate.fields_padded : padded.fields = small.fields := by
  decide +kernel

/-- A byte behind a certificate and one behind a request are accepted, and the client hands
out the certificate that has it. -/
theorem padded_accepted :
    Certificate.ofDer (Certificate.small.der ++ [0]) = .ok .padded
      ∧ Certificate.padded ≠ .small ∧ Certificate.padded.fields = Certificate.small.fields
      ∧ (∀ l, Certificate.padded.Laid l → ¬l.Exact)
      ∧ SigningRequest.ofPem SigningRequest.padded.pem = .ok .padded
      ∧ SigningRequest.padded.der = SigningRequest.edwards.der ++ [0]
      ∧ (∀ l, SigningRequest.padded.Laid l → ¬l.Exact)
      ∧ ∃ network chain, (Client.small.sign network .edwards).result = .ok chain
        ∧ chain.leaf = .padded := by
  have hsigned : Certificate.padded.verifySignedBy .small = .ok () := by
    rw [Certificate.verifySignedBy, Certificate.fields_padded]
    exact Certificate.verifySignedBy_small
  have hkey : Certificate.padded.publicKey = SigningRequest.edwards.publicKey := by
    rw [Certificate.publicKey, Certificate.fields_padded]
    exact Certificate.publicKey_small
  have hsign := @Client.sign_holder _ Client.small .edwards .small .padded Client.isServer_small
    Certificate.commonName_small hsigned hkey (by decide)
  refine ⟨Certificate.ofDer_der .padded, ?_, Certificate.fields_padded, ?_,
    SigningRequest.ofPem_ofDer _ _, rfl, ?_, _, _, hsign, rfl⟩
  · decide +kernel
  · rintro l hl ⟨-, hbehind⟩
    have hzero : l.behind = [0] := hl.behind_eq (by decide +kernel)
    cases hbehind.symm.trans hzero
  · rintro l hl ⟨-, hbehind⟩
    have hzero : l.behind = [0] := hl.behind_eq (by decide +kernel)
    cases hbehind.symm.trans hzero

end Enrollment
