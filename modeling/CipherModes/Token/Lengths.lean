import CipherModes.Token.Answer

/-!
# A token as a backend

Whatever a token writes into a buffer has the length of what it replaces, so a
token is a backend.
-/

set_option autoImplicit false

namespace CipherModes.Token

theorem length_cryptBlocks {schedule : Aes.Schedule} {direction : Direction} {input : Bytes}
    (whole : input.length % Aes.blockLength = 0) :
    (cryptBlocks schedule direction input).length = input.length := by
  have blocks : ∀ (transform : Bytes → Bytes), (∀ block, (transform block).length = 16) →
      ∀ pieces : List Bytes, (pieces.flatMap transform).length = 16 * pieces.length := by
    intro transform size pieces
    induction pieces with
    | nil => rfl
    | cons piece rest ih =>
        rw [List.flatMap_cons, List.length_append, size, ih, List.length_cons]
        omega
  have exact : 16 * (input.length / 16) = input.length :=
    Nat.mul_div_cancel' (Nat.dvd_of_mod_eq_zero whole)
  unfold cryptBlocks
  cases direction <;>
    rw [blocks _ (fun _ => rfl), Bytes.length_pieces] <;> exact exact

/-- No answer changes the length of a buffer. -/
theorem keepsLengths_answer (call : Call) (token : Token) :
    (token.answer call).1.KeepsLengths := by
  have same {call : Call} {reply : Reply call} (output : reply.output = call.output)
      (tag : reply.tagOutput = call.tagOutput) : reply.KeepsLengths := by
    simp [Reply.KeepsLengths, output, tag]
  cases call with
  | openProvider algorithm flags =>
      simp only [answer, openProvider]
      split
      · exact Reply.keepsLengths_fail _
      · split
        · exact Reply.keepsLengths_fail _
        · exact Reply.keepsLengths_succeed _
  | closeProvider provider =>
      simp only [answer, closeProvider]
      split
      · exact Reply.keepsLengths_fail _
      · split
        · exact Reply.keepsLengths_fail _
        · exact Reply.keepsLengths_succeed _
  | importKey provider secret =>
      simp only [answer, importKey]
      repeat' split
      all_goals exact same rfl rfl
  | destroyKey key =>
      simp only [answer, destroyKey]
      split <;> exact same rfl rfl
  | getProperty handle name output =>
      simp only [answer, getProperty]
      split
      · exact Reply.keepsLengths_fail _
      · split
        · exact ⟨Bytes.length_overlay _ _ (by assumption), rfl⟩
        · exact Reply.keepsLengths_fail _
  | setProperty handle name value =>
      simp only [answer, setProperty]
      repeat' split
      all_goals exact same rfl rfl
  | crypt direction key input output =>
      simp only [answer, crypt]
      split
      · exact Reply.keepsLengths_fail _
      · rename_i accepted
        split
        · exact Reply.keepsLengths_fail _
        · rename_i room
          split
          · exact Reply.keepsLengths_fail _
          · exact Reply.keepsLengths_fail _
          · have whole : input.length % Aes.blockLength = 0 := by
              by_cases whole : input.length % Aes.blockLength = 0
              · exact whole
              · exact absurd (Or.inr whole) accepted
            refine ⟨Bytes.length_overlay _ _ ?_, by cases direction <;> rfl⟩
            rw [length_cryptBlocks whole]
            exact Nat.le_of_not_lt room
  | aeadEncrypt key nonce aad buffer tag =>
      simp only [answer, aeadEncrypt]
      split
      · exact Reply.keepsLengths_fail _
      · rename_i lengths
        split
        · exact Reply.keepsLengths_fail _
        · split
          · exact Reply.keepsLengths_fail _
          · exact Reply.keepsLengths_fail _
          · have tagLength : tag.length = Gcm.standardTagSize := by
              have both : aeadLengths nonce tag = true := by simpa using lengths
              simp only [aeadLengths, Bool.and_eq_true, beq_iff_eq] at both
              exact both.2
            refine ⟨Gcm.length_crypt (fun _ => rfl) _ _, ?_⟩
            exact (Gcm.length_fullTag (fun _ => rfl) _ _ _).trans tagLength.symm
  | aeadDecrypt key nonce aad buffer tag =>
      simp only [answer, aeadDecrypt]
      split
      · exact Reply.keepsLengths_fail _
      · split
        · exact Reply.keepsLengths_fail _
        · split
          · exact Reply.keepsLengths_fail _
          · exact Reply.keepsLengths_fail _
          · split
            · exact Reply.keepsLengths_fail _
            · rename_i opened
              simp only [Gcm.openDetached?] at opened
              split at opened
              · cases opened
                exact ⟨Gcm.length_crypt (fun _ => rfl) _ _, rfl⟩
              · exact absurd opened (by simp)
  | fipsEnabled => exact Reply.keepsLengths_succeed _

def backend : Backend Token where
  answer call token := token.answer call
  describe := describe
  keepsLengths := keepsLengths_answer

end CipherModes.Token
