import Letmein.Client

/-!
# Tampering with authenticated messages (`letmein-proto/src/lib.rs`)

The token of a message is made from its operation, user, resource and salt and from the token of a challenge, or from
the all-zero token where there is no challenge. If no two byte strings have the same token under a key, then a token
is good for one such tuple only.
-/

namespace Letmein

namespace Message
variable {Auth : Type} [AuthToken Auth]

/-- The messages agree in everything that is authenticated. -/
def Agrees (a b : Message Auth) : Prop :=
  a.operation = b.operation ∧ a.user = b.user ∧ a.resource = b.resource ∧ a.salt = b.salt

omit [AuthToken Auth] in
theorem Agrees.header_eq {a b : Message Auth} (h : a.Agrees b) : a.header = b.header := by
  obtain ⟨hop, huser, hres, hsalt⟩ := h
  unfold header
  rw [hop, huser, hres, hsalt]

/-- The token says which fields and which challenge it was made from. -/
theorem authenticate_eq_iff (hbytes : Function.Injective (AuthToken.bytes : Auth → List UInt8)) {key : Key}
    (hmac_inj : Function.Injective (hmac key : List UInt8 → Auth)) {a b : Message Auth} {x y : Auth} :
    a.authenticate key x = b.authenticate key y ↔ a.Agrees b ∧ x = y := by
  constructor
  · intro h
    obtain ⟨hop, huser, hres, hsalt, htoken⟩ := header_append_inj (hmac_inj h)
    exact ⟨⟨hop, huser, hres, hsalt⟩, hbytes htoken⟩
  · rintro ⟨hagree, rfl⟩
    unfold authenticate
    rw [hagree.header_eq]

variable [DecidableEq Auth]

theorem checkAuthOk_true_iff (msg challenge : Message Auth) (key : Key) :
    msg.checkAuthOk key challenge = .ok true ↔ challenge.operation = .challenge ∧ msg.operation = .response ∧
      msg.auth = msg.authenticate key challenge.auth := by
  by_cases hchal : challenge.operation = .challenge
  · by_cases hop : msg.operation = .response
    · rw [checkAuthOk_eq hop hchal]
      simp [hchal, hop]
    · simp [checkAuthOk, check, hchal, hop, bind, Except.bind]
  · simp [checkAuthOk, check, hchal, bind, Except.bind]

theorem checkAuthOkNoChallenge_true_iff (msg : Message Auth) (key : Key) :
    msg.checkAuthOkNoChallenge key = .ok true ↔ (msg.operation = .knock ∨ msg.operation = .close) ∧
      msg.auth = msg.authenticate key zeroAuth := by
  by_cases hop : msg.operation = .knock ∨ msg.operation = .close
  · rw [checkAuthOkNoChallenge_eq hop, Except.ok.injEq, decide_eq_true_iff]
    exact ⟨fun h => ⟨hop, h⟩, And.right⟩
  · simp [checkAuthOkNoChallenge, check, hop, bind, Except.bind]

omit [DecidableEq Auth] in
theorem generateAuth_ok {msg challenge m : Message Auth} {key : Key} (h : msg.generateAuth key challenge = .ok m) :
    challenge.operation = .challenge ∧ m.operation = .response ∧ m.auth = m.authenticate key challenge.auth := by
  by_cases hchal : challenge.operation = .challenge
  · by_cases hop : msg.operation = .response
    · rw [generateAuth_eq hop hchal] at h
      cases h
      exact ⟨hchal, hop, rfl⟩
    · simp [generateAuth, check, hchal, hop, bind, Except.bind] at h
  · simp [generateAuth, check, hchal, bind, Except.bind] at h

omit [DecidableEq Auth] in
theorem generateAuthNoChallenge_ok {msg m : Message Auth} {key : Key} (h : msg.generateAuthNoChallenge key = .ok m) :
    (m.operation = .knock ∨ m.operation = .close) ∧ m.auth = m.authenticate key zeroAuth := by
  by_cases hop : msg.operation = .knock ∨ msg.operation = .close
  · rw [generateAuthNoChallenge_eq hop] at h
    cases h
    exact ⟨hop, rfl⟩
  · simp [generateAuthNoChallenge, check, hop, bind, Except.bind] at h

end Message

section
variable {Auth : Type} [AuthToken Auth] [DecidableEq Auth]

open Message

/-- A token is accepted with the fields and the challenge that it was made for and with no others. -/
theorem tampering_detected (hbytes : Function.Injective (AuthToken.bytes : Auth → List UInt8))
    {key : Key} (hmac_inj : Function.Injective (hmac key : List UInt8 → Auth)) :
    (∀ msg challenge m : Message Auth, msg.generateAuth key challenge = .ok m →
      (∀ m' challenge' : Message Auth, m'.auth = m.auth → challenge'.operation = .challenge →
        (m'.checkAuthOk key challenge' = .ok true ↔ m'.Agrees m ∧ challenge'.auth = challenge.auth)) ∧
      (∀ m' : Message Auth, m'.auth = m.auth → m'.checkAuthOkNoChallenge key ≠ .ok true) ∧
      (∀ auth : Auth, auth ≠ m.auth → ({ m with auth := auth } : Message Auth).checkAuthOk key challenge = .ok false)) ∧
    (∀ msg m : Message Auth, msg.generateAuthNoChallenge key = .ok m →
      (∀ m' : Message Auth, m'.auth = m.auth → (m'.checkAuthOkNoChallenge key = .ok true ↔ m'.Agrees m)) ∧
      (∀ m' challenge' : Message Auth, m'.auth = m.auth → m'.checkAuthOk key challenge' ≠ .ok true) ∧
      (∀ auth : Auth, auth ≠ m.auth →
        ({ m with auth := auth } : Message Auth).checkAuthOkNoChallenge key = .ok false)) := by
  constructor
  · intro msg challenge m hgen
    obtain ⟨hchal, hop, hauth⟩ := generateAuth_ok hgen
    refine ⟨?_, ?_, ?_⟩
    · intro m' challenge' hsame hchal'
      rw [checkAuthOk_true_iff, hsame, hauth, @eq_comm _ _ (m'.authenticate _ _),
        authenticate_eq_iff hbytes hmac_inj]
      constructor
      · rintro ⟨-, -, h⟩
        exact h
      · rintro ⟨hagree, htoken⟩
        exact ⟨hchal', hagree.1.trans hop, hagree, htoken⟩
    · intro m' hsame hok
      obtain ⟨hop', hauth'⟩ := (checkAuthOkNoChallenge_true_iff _ _).mp hok
      rw [hsame, hauth, authenticate_eq_iff hbytes hmac_inj] at hauth'
      -- A token for a response says so.
      rw [← hauth'.1.1, hop] at hop'
      exact absurd hop' (by decide)
    · intro auth hne
      have hop' : ({ m with auth := auth } : Message Auth).operation = .response := hop
      rw [hauth] at hne
      exact (checkAuthOk_eq hop' hchal key).trans (congrArg Except.ok (decide_eq_false hne))
  · intro msg m hgen
    obtain ⟨hop, hauth⟩ := generateAuthNoChallenge_ok hgen
    refine ⟨?_, ?_, ?_⟩
    · intro m' hsame
      rw [checkAuthOkNoChallenge_true_iff, hsame, hauth, @eq_comm _ _ (m'.authenticate _ _),
        authenticate_eq_iff hbytes hmac_inj]
      constructor
      · rintro ⟨-, hagree, -⟩
        exact hagree
      · intro hagree
        exact ⟨by rw [hagree.1]; exact hop, hagree, rfl⟩
    · intro m' challenge' hsame hok
      obtain ⟨-, hop', hauth'⟩ := (checkAuthOk_true_iff _ _ _).mp hok
      rw [hsame, hauth, authenticate_eq_iff hbytes hmac_inj] at hauth'
      rw [hauth'.1.1, hop'] at hop
      exact absurd hop (by decide)
    · intro auth hne
      have hop' : ({ m with auth := auth } : Message Auth).operation = .knock ∨
          ({ m with auth := auth } : Message Auth).operation = .close := hop
      rw [hauth] at hne
      exact (checkAuthOkNoChallenge_eq hop' key).trans (congrArg Except.ok (decide_eq_false hne))

end

/-- A response, made for the challenge with the token `5`. -/
def sampleAuthentic : Message SymAuth :=
  let msg : Message SymAuth := .new .response ⟨1⟩ ⟨2⟩ (.replicate 8 1)
  { msg with auth := msg.authenticate (.replicate 32 7) (.raw [5]) }

theorem tampering_detected_sample :
    let challenge : Message SymAuth := ⟨MAGIC, .challenge, ⟨1⟩, ⟨2⟩, .replicate 8 1, .raw [5]⟩
    sampleAuthentic.checkAuthOk (.replicate 32 7) challenge = .ok true ∧
      ({ sampleAuthentic with user := ⟨3⟩ } : Message SymAuth).checkAuthOk (.replicate 32 7) challenge ≠ .ok true ∧
      sampleAuthentic.checkAuthOk (.replicate 32 7) { challenge with auth := .raw [6] } ≠ .ok true := by
  have hbytes : Function.Injective (AuthToken.bytes : SymAuth → List UInt8) := fun _ _ h => FreeHmac.bytes_inj h
  have hmac_inj : Function.Injective (hmac (.replicate 32 7) : List UInt8 → SymAuth) :=
    fun _ _ h => (FreeHmac.hmac_inj h).2
  intro challenge
  obtain ⟨hiff, -, -⟩ := (tampering_detected hbytes hmac_inj).1 (.new .response ⟨1⟩ ⟨2⟩ (.replicate 8 1)) challenge
    sampleAuthentic rfl
  refine ⟨(hiff _ _ rfl rfl).mpr ⟨⟨rfl, rfl, rfl, rfl⟩, rfl⟩, ?_, ?_⟩
  · intro hok
    obtain ⟨⟨-, huser, -⟩, -⟩ := (hiff { sampleAuthentic with user := ⟨3⟩ } challenge rfl rfl).mp hok
    exact absurd huser (by decide)
  · intro hok
    obtain ⟨-, htoken⟩ := (hiff sampleAuthentic { challenge with auth := .raw [6] } rfl rfl).mp hok
    exact absurd htoken (by decide)

end Letmein
