import TorE2EE.Crypto.SpentKeys
import TorE2EE.Crypto.InSync

/-!
# Where a sending chain comes from

A session seals under one sending chain at a time, and every chain goes with a key pair of its own:
the one `initiateSession` or a ratchet step has just drawn (`RenewedChain`), or the one
`initiateBobSession` drew, when the first message is sealed before any ratchet step (`FirstChain`).

Two chains of different key pairs are different (`RenewedChain.draw_unique`), whatever bundles and
headers they were made for. So a message key says under which key pair it was sealed, and the send
counter keeps the messages of one key pair apart (`SendSide.sealed`).
-/

set_option autoImplicit false

namespace TorE2EE.Crypto

open TorE2EE.Foundation

variable {B S : Type}

/-! ## Sealing keys -/

/-- The ciphertext of `m` is a box under `key`. -/
def SealedUnder (P : Primitives B S) (m : EncryptedMessage S) (key : B) : Prop :=
  ∃ plaintext nonce, m.ciphertext = P.toBase64 (P.secretbox plaintext nonce key)

/-- The ciphertext of `m` is a box as `encrypt` makes it: under the message key of the chain key `c`,
with a nonce of 24 bytes. -/
def BoxedAt (P : Primitives B S) (m : EncryptedMessage S) (c : B) : Prop :=
  ∃ plaintext nonce, P.length nonce = 24 ∧
    m.ciphertext = P.toBase64 (P.secretbox plaintext nonce (kdfChain P c).messageKey)

/-- Two messages have different headers, and no key sealed both. -/
def Apart (P : Primitives B S) (m m' : EncryptedMessage S) : Prop :=
  m.header ≠ m'.header ∧ ∀ key, ¬ (SealedUnder P m key ∧ SealedUnder P m' key)

variable {P : Primitives B S} {E : Entropy B}

/-- A box says under which key it was sealed. -/
theorem SealedUnder.unique (hP : P.Lawful) (hfree : P.FreeTerms) {m : EncryptedMessage S}
    {key c : B} (h : SealedUnder P m key) (h' : BoxedAt P m c) : key = (kdfChain P c).messageKey := by
  obtain ⟨plaintext, nonce, hbox⟩ := h
  obtain ⟨plaintext', nonce', hlength, hbox'⟩ := h'
  have hsame : P.secretbox plaintext nonce key =
      P.secretbox plaintext' nonce' (kdfChain P c).messageKey := by
    rw [← hP.fromBase64_toBase64 (P.secretbox plaintext nonce key), ← hbox, hbox',
      hP.fromBase64_toBase64]
  have hopen := hP.secretboxOpen_secretbox plaintext' nonce' c hlength
  rw [← hsame] at hopen
  exact (hfree.secretboxOpen_key hopen).symm

/-! ## Chains -/

variable (P E) in
/-- A chain made with the key pair drawn at `d`, by `initiateSession` or by a ratchet step. A ratchet
step receives on the same remote key with the key pair drawn before, at `e`. -/
inductive RenewedChain (ikA : Curve25519KeyPair B S) (d : Nat) : B → Prop where
  | initiated {ikB spkB dh : B} {oneTimePreKey : Option (PublicOneTimePreKey S)} {dhs : List B} :
      initiatorDhs P ikA (keyPairOf P (E.secretKey d)) ikB spkB oneTimePreKey = .ok dhs →
      RenewedChain ikA d (kdfRoot P (masterSecret P dhs) dh).chainKey
  | ratcheted {dhs : List B} {n e : Nat} {rootKey remoteDh dhReceive dhSend : B} :
      e ≠ d → RootAt P dhs n rootKey → 0 < n →
      P.scalarMult (E.secretKey e) remoteDh = .ok dhReceive →
      P.scalarMult (E.secretKey d) remoteDh = .ok dhSend →
      RenewedChain ikA d (kdfRoot P (kdfRoot P rootKey dhReceive).nextRootKey dhSend).chainKey

variable (P) in
/-- The chain a responder makes from its first root key, when it seals before any ratchet step. -/
def FirstChain (c : B) : Prop :=
  ∃ dhs rootKey dh, RootAt P dhs 1 rootKey ∧ c = (kdfRoot P rootKey dh).chainKey

variable {ikA : Curve25519KeyPair B S} {d d' : Nat} {c c' : B}

/-- Every chain is derived from a root key. -/
theorem RenewedChain.exists_root (h : RenewedChain P E ikA d c) :
    ∃ r x, c = (kdfRoot P r x).chainKey := by
  cases h with
  | initiated _ => exact ⟨_, _, rfl⟩
  | ratcheted _ _ _ _ _ => exact ⟨_, _, rfl⟩

theorem FirstChain.exists_root (h : FirstChain P c) : ∃ r x, c = (kdfRoot P r x).chainKey := by
  obtain ⟨-, r, x, -, heq⟩ := h
  exact ⟨r, x, heq⟩

/-- Two initiated sessions have different master secrets: the first Diffie-Hellman value is of the
identity key with the signed prekey, the third of the key drawn with the same signed prekey. -/
theorem initiatorDhs_draw_unique (hfree : P.FreeTerms) (hE : E.Fresh P) {ikB ikB' spkB spkB' : B}
    {otk otk' : Option (PublicOneTimePreKey S)} {dhs : List B}
    (h : initiatorDhs P ikA (keyPairOf P (E.secretKey d)) ikB spkB otk = .ok dhs)
    (h' : initiatorDhs P ikA (keyPairOf P (E.secretKey d')) ikB' spkB' otk' = .ok dhs) : d = d' := by
  obtain ⟨v, hv, hfirst⟩ := initiatorDhs_first h
  obtain ⟨v', hv', hfirst'⟩ := initiatorDhs_first h'
  cases hv.symm.trans hv'
  obtain ⟨w, hw, hthird⟩ := initiatorDhs_third h
  obtain ⟨w', hw', hthird'⟩ := initiatorDhs_third h'
  cases hw.symm.trans hw'
  have hspk : spkB = spkB' := by
    rcases hfree.scalarMult_inj hfirst hfirst' with ⟨-, heq⟩ | ⟨hx, hy⟩
    · exact heq
    · exact hx.trans hy.symm
  subst hspk
  apply hE.scalarMultBase_inj
  rcases hfree.scalarMult_inj hthird hthird' with ⟨heq, -⟩ | ⟨hx, hy⟩
  · exact heq
  · exact hy.symm.trans hx

/-- Two ratchet steps that reach the same sending chain drew the same key pair. -/
theorem ratchet_draw_unique (hfree : P.FreeTerms) (hE : E.Fresh P) {e e' : Nat}
    {x x' dhReceive dhSend : B} (hne : e' ≠ d')
    (hreceive : P.scalarMult (E.secretKey e) x = .ok dhReceive)
    (hreceive' : P.scalarMult (E.secretKey e') x' = .ok dhReceive)
    (hsend : P.scalarMult (E.secretKey d) x = .ok dhSend)
    (hsend' : P.scalarMult (E.secretKey d') x' = .ok dhSend) : d = d' := by
  rcases hfree.scalarMult_inj hsend hsend' with ⟨heq, -⟩ | ⟨hx, hx'⟩
  · exact hE.scalarMultBase_inj heq
  · -- each remote key would be the other's key drawn for sending
    rcases hfree.scalarMult_inj hreceive hreceive' with ⟨-, hsame⟩ | ⟨hx₁, -⟩
    · apply hE.scalarMultBase_inj
      rw [← hx', ← hsame, hx]
    · exact absurd (hE.scalarMultBase_inj (hx₁.symm.trans hx)) hne

/-- A chain made by `initiateSession` or a ratchet step is made with no other key pair, and no
responder makes it from its first root key. -/
theorem RenewedChain.draw_unique (hfree : P.FreeTerms) (hE : E.Fresh P)
    (h : RenewedChain P E ikA d c) (h' : RenewedChain P E ikA d' c) : d = d' := by
  cases h with
  | initiated hdhs =>
      generalize heq : (kdfRoot P _ _).chainKey = c at h'
      cases h' with
      | initiated hdhs' =>
          obtain ⟨hmaster, -⟩ := hfree.chainKey_inj heq
          have hlists := hfree.masterSecret_inj (dhValues_of_initiatorDhs hdhs)
            (dhValues_of_initiatorDhs hdhs') hmaster
          rw [hlists] at hdhs
          exact initiatorDhs_draw_unique hfree hE hdhs hdhs'
      | ratcheted _ _ _ _ _ =>
          obtain ⟨hmaster, -⟩ := hfree.chainKey_inj heq
          exact absurd hmaster (hfree.masterSecret_ne_nextRootKey _ _ _)
  | ratcheted _ _ _ hreceive hsend =>
      generalize heq : (kdfRoot P _ _).chainKey = c at h'
      cases h' with
      | initiated _ =>
          obtain ⟨hmaster, -⟩ := hfree.chainKey_inj heq
          exact absurd hmaster.symm (hfree.masterSecret_ne_nextRootKey _ _ _)
      | ratcheted hne' _ _ hreceive' hsend' =>
          obtain ⟨hnext, rfl⟩ := hfree.chainKey_inj heq
          obtain ⟨-, rfl⟩ := hfree.nextRootKey_inj hnext
          exact ratchet_draw_unique hfree hE hne' hreceive hreceive' hsend hsend'

theorem RenewedChain.not_firstChain (hfree : P.FreeTerms) (h : RenewedChain P E ikA d c) :
    ¬ FirstChain P c := by
  rintro ⟨dhs', r', dh', hroot', heq⟩
  cases h with
  | initiated hdhs =>
      obtain ⟨rfl, -⟩ := hfree.chainKey_inj heq
      obtain ⟨-, hdepth⟩ := hroot'.unique hfree (.master (dhValues_of_initiatorDhs hdhs))
      omega
  | ratcheted _ hroot hpos _ _ =>
      obtain ⟨rfl, -⟩ := hfree.chainKey_inj heq
      obtain ⟨-, hdepth⟩ := hroot'.unique hfree (hroot.next _)
      omega

/-- Two message keys of chains that branch off root keys are equal only at one place of one
chain. -/
theorem messageKeyAt_chain_inj (hfree : P.FreeTerms) (hc : ∃ r x, c = (kdfRoot P r x).chainKey)
    (hc' : ∃ r x, c' = (kdfRoot P r x).chainKey) {i i' : Nat}
    (h : messageKeyAt P c i = messageKeyAt P c' i') : c = c' ∧ i = i' := by
  obtain ⟨r, x, rfl⟩ := hc
  obtain ⟨r', x', rfl⟩ := hc'
  obtain ⟨rfl, rfl, rfl⟩ := chainKeyAt_kdfRoot_inj hfree (hfree.messageKey_inj h)
  exact ⟨rfl, rfl⟩

/-! ## The sending side of a session -/

variable (P E) in
/-- Where `m` was sealed: with the key pair drawn at `d`, at the position its header says, of a chain
that goes with the key pair. -/
structure SealedWith (ikA : Curve25519KeyPair B S) (d : Nat) (m : EncryptedMessage S) : Prop where
  key : m.ephemeralPublicKeyHex = drawnPublicKeyHex P E d
  place : ∃ c i, (RenewedChain P E ikA d c ∨ FirstChain P c) ∧ m.sequenceNumber = (i : Nat) ∧
    BoxedAt P m (chainKeyAt P c i)

variable (P E) in
/-- `s` seals with the key pair drawn at `d`, at a position past all messages of `sent` that were
sealed with it. A responder's first chain has no other messages before it. -/
structure SendSide (ikA : Curve25519KeyPair B S) (sent : List (EncryptedMessage S)) (d : Nat)
    (s : SessionRecord B S) : Prop where
  localKey : s.localDhKeyPair = keyPairOf P (E.secretKey d)
  root : ∃ dhs n r, P.hexToBytes s.rootKeyHex = .ok r ∧ RootAt P dhs n r ∧ 0 < n ∧
    (s.sendChainKeyHex = none → n = 1)
  chain : ∀ hex, s.sendChainKeyHex = some hex → ∃ c,
    hex = P.bytesToHex (chainKeyAt P c s.sendSequenceNumber) ∧
      (RenewedChain P E ikA d c ∨
        FirstChain P c ∧ ∀ m ∈ sent, m.ephemeralPublicKeyHex = drawnPublicKeyHex P E d)
  unsent : s.sendChainKeyHex = none → s.sendSequenceNumber = 0 ∧ sent = []
  behind : ∀ m ∈ sent, m.ephemeralPublicKeyHex = drawnPublicKeyHex P E d →
    m.sequenceNumber < s.sendSequenceNumber

variable {sent : List (EncryptedMessage S)} {s s' : SessionRecord B S}

/-- A session that differs on the receiving side only. -/
theorem SendSide.congr (h : SendSide P E ikA sent d s) (hlocal : s'.localDhKeyPair = s.localDhKeyPair)
    (hroot : s'.rootKeyHex = s.rootKeyHex) (hchain : s'.sendChainKeyHex = s.sendChainKeyHex)
    (hcount : s'.sendSequenceNumber = s.sendSequenceNumber) : SendSide P E ikA sent d s' where
  localKey := hlocal.trans h.localKey
  root := by
    rw [hroot, hchain]
    exact h.root
  chain := by
    rw [hchain, hcount]
    exact h.chain
  unsent := by
    rw [hchain, hcount]
    exact h.unsent
  behind := by
    rw [hcount]
    exact h.behind

/-- The chain `encrypt` makes first, for want of one, is the responder's first. -/
theorem SendSide.ensureSendChain (h : SendSide P E ikA sent d s') (hP : P.Lawful) {chainHex : S}
    (hchain : Crypto.ensureSendChain P s' = .ok (s, chainHex)) :
    SendSide P E ikA sent d s ∧ s.sendChainKeyHex = some chainHex := by
  rcases ensureSendChain_cases P hchain with
    ⟨hstored, rfl⟩ | ⟨remoteHex, rootKey, remoteDh, dhSend, hnone, -, hroot, -, -, rfl, rfl⟩
  · exact ⟨h, hstored⟩
  · obtain ⟨dhs, n, r, hr, hat, -, hfirst⟩ := h.root
    cases hr.symm.trans hroot
    cases hfirst hnone
    obtain ⟨hcount, rfl⟩ := h.unsent hnone
    refine
      ⟨{ localKey := h.localKey
         root := ⟨dhs, 2, _, hP.hexToBytes_bytesToHex _, hat.next dhSend, by omega, ?first⟩
         chain := ?chain
         unsent := ?unsent
         behind := ?behind }, rfl⟩
    -- The chain is there now, so nothing is asked of a session without one.
    case first =>
      intro hsome
      cases hsome
    case chain =>
      intro hex hhex
      cases hhex
      refine ⟨(kdfRoot P rootKey dhSend).chainKey, ?_,
        Or.inr ⟨⟨dhs, rootKey, dhSend, hat, rfl⟩, ?_⟩⟩
      · simp [hcount]
      · intro m hm
        cases hm
    case unsent =>
      intro hsome
      cases hsome
    case behind =>
      intro m hm
      cases hm

/-- A message sealed next is apart from all messages before it, and the session after it seals past
it. -/
theorem SendSide.sealed (h : SendSide P E ikA sent d s) (hP : P.Lawful) (hfree : P.FreeTerms)
    (hE : E.Fresh P) (hsent : ∀ m ∈ sent, ∃ e, SealedWith P E ikA e m) {chainHex : S}
    (hchain : s.sendChainKeyHex = some chainHex) {ck : B} (hck : P.hexToBytes chainHex = .ok ck)
    (identity : UserIdentity B S) {nonce : B} (hnonce : P.length nonce = 24) (plaintext : S)
    (context : Option InitialBundleContext) (now : Nat) :
    let m := sealedMessage P identity s ck nonce plaintext context
    SealedWith P E ikA d m ∧ (∀ m' ∈ sent, Apart P m m') ∧
      SendSide P E ikA (m :: sent) d (s.sealedOnce P ck now) := by
  intro m
  obtain ⟨c, hhex, horigin⟩ := h.chain chainHex hchain
  rw [hhex, hP.hexToBytes_bytesToHex] at hck
  cases hck
  have hkey : m.ephemeralPublicKeyHex = drawnPublicKeyHex P E d := by
    show s.localDhKeyPair.publicKeyHex = _
    rw [h.localKey]
    rfl
  have hbox : BoxedAt P m (chainKeyAt P c s.sendSequenceNumber) := ⟨_, nonce, hnonce, rfl⟩
  have hroot : ∃ r x, c = (kdfRoot P r x).chainKey := by
    rcases horigin with hrenewed | ⟨hfirst, -⟩
    · exact hrenewed.exists_root
    · exact hfirst.exists_root
  refine ⟨⟨hkey, c, s.sendSequenceNumber, horigin.imp id And.left, rfl, hbox⟩, ?_, ?_⟩
  · intro m' hm'
    have hpast := h.behind m' hm'
    constructor
    · intro heq
      have hcount : m.sequenceNumber = m'.sequenceNumber := congrArg Prod.snd heq
      have hsame : m.ephemeralPublicKeyHex = m'.ephemeralPublicKeyHex := congrArg Prod.fst heq
      have hlt := hpast (hsame.symm.trans hkey)
      rw [← hcount] at hlt
      exact absurd hlt (Int.lt_irrefl _)
    · rintro key ⟨hm, hm''⟩
      obtain ⟨e, hkey', c', i, horigin', hcount', hbox'⟩ := hsent m' hm'
      -- the key would be of the same place of the same chain
      have hkeys := (hm.unique hP hfree hbox).symm.trans (hm''.unique hP hfree hbox')
      have hroot' : ∃ r x, c' = (kdfRoot P r x).chainKey :=
        horigin'.elim RenewedChain.exists_root FirstChain.exists_root
      obtain ⟨rfl, rfl⟩ := messageKeyAt_chain_inj hfree hroot hroot' hkeys
      have hdraw : m'.ephemeralPublicKeyHex = drawnPublicKeyHex P E d := by
        rcases horigin with hrenewed | ⟨-, hall⟩
        · rcases horigin' with hrenewed' | hfirst'
          · rw [hkey', hrenewed.draw_unique hfree hE hrenewed']
          · exact absurd hfirst' (hrenewed.not_firstChain hfree)
        · exact hall m' hm'
      have hlt := hpast hdraw
      rw [hcount'] at hlt
      exact absurd hlt (Int.lt_irrefl _)
  · refine
      { localKey := h.localKey
        root := ?root
        chain := ?chain
        unsent := ?unsent
        behind := ?behind }
    case root =>
      obtain ⟨dhs, n, r, hr, hat, hpos, -⟩ := h.root
      exact ⟨dhs, n, r, hr, hat, hpos, fun hnone => by cases hnone⟩
    case chain =>
      intro hex hhex'
      cases hhex'
      refine ⟨c, ?_, horigin.imp id fun ⟨hfirst, hall⟩ => ⟨hfirst, ?_⟩⟩
      · show _ = P.bytesToHex (chainKeyAt P c (s.sendSequenceNumber + 1))
        rw [chainKeyAt_succ]
      · intro m' hm'
        rcases List.mem_cons.1 hm' with rfl | hold
        · exact hkey
        · exact hall m' hold
    case unsent =>
      intro hnone
      cases hnone
    case behind =>
      intro m' hm' hdraw
      show m'.sequenceNumber < ((s.sendSequenceNumber + 1 : Nat) : Int)
      rcases List.mem_cons.1 hm' with rfl | hold
      · show (s.sendSequenceNumber : Int) < _
        omega
      · have := h.behind m' hold hdraw
        omega

end TorE2EE.Crypto
