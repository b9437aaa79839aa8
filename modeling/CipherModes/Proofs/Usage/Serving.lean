import CipherModes.Proofs.Engine.Coherence
import CipherModes.Proofs.Token.Outcomes
import Mathlib.Data.List.Perm.Subperm

/-!
# What a token keeps for its users

Keys that are used in some mode are live and were made in it, and providers that
engines have cached are open in the mode of their cache key. Nothing changes
that but a call that destroys such a key, closes such a provider or sets its
mode. What is opened or imported gets a handle of its own.
-/

set_option autoImplicit false

namespace CipherModes

/-- A key that somebody holds, and the mode in which its holder uses it. -/
structure Custody where
  key : ImportedKey
  mode : Option ChainingMode

/-- A mode for which engines cache providers. -/
def ChainingMode.OfEngine (mode : ChainingMode) : Prop := mode = .ecb ∨ mode = .gcm

/-- Takes neither a used key nor a cached provider from its users. -/
structure Call.Spares (custody : List Custody) (cached : List (CacheKey × AesAlgorithm))
    (call : Call) : Prop where
  keys : ∀ held ∈ custody, held.mode.isSome = true → call ≠ .destroyKey held.key.raw
  providers : ∀ entry ∈ cached, call.LeavesAlone entry.2.provider.raw

namespace Token

variable {token next : Token} {call : Call}

/-- A live key that was imported in a mode. -/
def Keyed (token : Token) (key : Handle) (mode : ChainingMode) : Prop :=
  ∃ object secret, token.keys.get? key = some object ∧
    KeyMaterial.ofSecret mode secret = .ok object.material

theorem Keyed.kept {key : Handle} {mode : ChainingMode} (keyed : token.Keyed key mode)
    (accounted : token.Accounted) (effect : token.Effect call next)
    (lasts : next.handlesIssued < Handle.limit) (spared : call ≠ .destroyKey key) :
    next.Keyed key mode := by
  obtain ⟨object, secret, present, made⟩ := keyed
  refine ⟨object, secret, ?_, made⟩
  cases effect with
  | imported =>
      have different : key ≠ .issuedAfter token.issued := by
        rintro rfl
        rw [(accounted.unused lasts).2] at present
        cases present
      rw [HandleTable.get?_insert_ne different, present]
  | destroyed other =>
      have different : key ≠ other := by
        rintro rfl
        exact spared rfl
      rw [HandleTable.get?_erase_ne different, present]
  | nothing | opened | closed | switched => exact present

/-- What a token keeps for the holders of keys, for engines and for others who have providers. -/
structure Serves (custody : List Custody) (cached : List (CacheKey × AesAlgorithm))
    (strangers : List Provider) (token : Token) : Prop where
  accounted : token.Accounted
  live : ∀ held ∈ custody, ∀ mode ∈ held.mode, token.Keyed held.key.raw mode
  once : (custody.map (·.key.raw)).Nodup
  issued : ∀ held ∈ custody, held.key.raw.id.toNat ≤ token.handlesIssued
  open_in_mode : ∀ entry ∈ cached, ∃ mode, mode.OfEngine ∧ entry.1 = Driven.cacheKey mode ∧
    token.providers.get? entry.2.provider.raw = some mode
  apart : ∀ provider ∈ strangers, provider.raw.id.toNat ≤ token.handlesIssued ∧
    ∀ entry ∈ cached, entry.2.provider.raw ≠ provider.raw
  algorithms : ∀ provider ∈ custody.map (·.key.provider) ++ cached.map (·.2.provider) ++ strangers,
    provider.algorithm = aesAlgorithm

theorem serves_fresh (settings : Settings) : (fresh settings).Serves [] [] [] :=
  ⟨accounted_fresh settings, nofun, .nil, nofun, nofun, nofun, nofun⟩

namespace Serves

variable {custody : List Custody} {cached : List (CacheKey × AesAlgorithm)}
  {strangers : List Provider}

theorem shrink {fewer : List Custody} {uncached : List (CacheKey × AesAlgorithm)}
    {others : List Provider} (serves : token.Serves custody cached strangers)
    (keys : fewer.Subperm custody) (entries : uncached ⊆ cached) (providers : others ⊆ strangers) :
    token.Serves fewer uncached others where
  accounted := serves.accounted
  live held member := serves.live held (keys.subset member)
  once := by
    obtain ⟨between, perm, sublist⟩ := keys
    exact (perm.map _).nodup_iff.mp ((sublist.map _).nodup serves.once)
  issued held member := serves.issued held (keys.subset member)
  open_in_mode entry member := serves.open_in_mode entry (entries member)
  apart provider member :=
    ⟨(serves.apart provider (providers member)).1,
      fun entry cached => (serves.apart provider (providers member)).2 entry (entries cached)⟩
  algorithms provider member := by
    apply serves.algorithms
    simp only [List.mem_append] at member ⊢
    exact member.imp (Or.imp (List.map_subset _ keys.subset ·) (List.map_subset _ entries ·))
      (providers ·)

theorem spared (serves : token.Serves custody cached strangers) (effect : token.Effect call next)
    (lasts : next.handlesIssued < Handle.limit) (spares : call.Spares custody cached) :
    next.Serves custody cached strangers := by
  have grown := effect.handlesIssued_le
  refine ⟨serves.accounted.step effect lasts, ?_, serves.once, ?_, ?_, ?_, serves.algorithms⟩
  case refine_1 =>
    intro held member mode used
    exact (serves.live held member mode used).kept serves.accounted effect lasts
      (spares.keys held member (Option.isSome_of_mem used))
  case refine_2 => exact fun held member => Nat.le_trans (serves.issued held member) grown
  case refine_3 =>
    intro entry member
    obtain ⟨mode, ofEngine, named, present⟩ := serves.open_in_mode entry member
    exact ⟨mode, ofEngine, named,
      effect.provider_kept serves.accounted lasts (spares.providers entry member) present⟩
  case refine_4 =>
    exact fun provider member => (serves.apart provider member).imp_left (Nat.le_trans · grown)

theorem opened {algorithm : String} {flags : ProviderFlags} {raw : Handle}
    (serves : token.Serves custody cached strangers)
    (success : (token.answer (.openProvider algorithm flags)).1.result = .ok raw)
    (lasts : (token.answer (.openProvider algorithm flags)).2.handlesIssued < Handle.limit) :
    (∀ other ∈ strangers, other.raw ≠ raw) ∧
      (token.answer (.openProvider algorithm flags)).2.Serves custody cached
        (⟨raw, algorithm⟩ :: strangers) := by
  have kept := serves.spared (token.answer_effect (.openProvider algorithm flags)) lasts
    ⟨fun _ _ _ => nofun, fun _ _ => ⟨nofun, fun _ _ => nofun⟩⟩
  obtain ⟨known, rfl, next⟩ := opened_of_ok success
  have grown : (token.answer (.openProvider algorithm flags)).2.handlesIssued =
      token.handlesIssued + 1 := by
    rw [next]
    exact Nat.add_right_comm ..
  rw [grown] at lasts
  have number := (serves.accounted.issue lasts).2
  have fresh : ∀ other ∈ strangers, other.raw ≠ .issuedAfter token.issued := by
    rintro other member same
    have before := (serves.apart other member).1
    rw [same, number] at before
    exact Nat.not_succ_le_self _ before
  refine ⟨fresh, kept.accounted, kept.live, kept.once, kept.issued, kept.open_in_mode, ?_, ?_⟩
  · rw [List.forall_mem_cons]
    refine ⟨⟨Nat.le_of_eq (number.trans grown.symm), ?_⟩, kept.apart⟩
    intro entry member
    obtain ⟨mode, -, -, present⟩ := serves.open_in_mode entry member
    exact serves.accounted.provider_ne lasts present
  · intro provider member
    rcases List.mem_append.mp member with older | newer
    · exact kept.algorithms provider (List.mem_append_left _ older)
    · rcases List.mem_cons.mp newer with rfl | older
      · exact known
      · exact kept.algorithms provider (List.mem_append_right _ older)

theorem imported {provider : Provider} {raw : Handle} {bits : UInt32} {secret : Bytes}
    {mode : Option ChainingMode} (serves : token.Serves custody cached strangers)
    (success : (token.answer (.importKey provider.raw secret)).1.result = .ok raw)
    (lasts : (token.answer (.importKey provider.raw secret)).2.handlesIssued < Handle.limit)
    (known : provider.algorithm = aesAlgorithm)
    (inMode : ∀ used ∈ mode, token.providers.get? provider.raw = some used) :
    (token.answer (.importKey provider.raw secret)).2.Serves
      (⟨⟨provider, raw, bits⟩, mode⟩ :: custody) cached strangers := by
  have kept := serves.spared (token.answer_effect (.importKey provider.raw secret)) lasts
    ⟨fun _ _ _ => nofun, fun _ _ => ⟨nofun, fun _ _ => nofun⟩⟩
  obtain ⟨rfl, made, material, present, ofSecret, next⟩ := imported_of_ok success
  have grown : (token.answer (.importKey provider.raw secret)).2.handlesIssued =
      token.handlesIssued + 1 := by
    rw [next]
    rfl
  rw [grown] at lasts
  have number := (serves.accounted.issue lasts).2
  refine ⟨kept.accounted, ?_, ?_, ?_, kept.open_in_mode, kept.apart, ?_⟩
  case refine_1 =>
    rw [List.forall_mem_cons]
    refine ⟨?_, kept.live⟩
    intro used member
    have same := inMode used member
    rw [present] at same
    cases same
    refine ⟨⟨provider.raw, UInt32.ofNat (secret.length * 8), material⟩, secret, ?_, ofSecret⟩
    rw [next]
    exact HandleTable.get?_insert_self ..
  case refine_2 =>
    rw [List.map_cons, List.nodup_cons]
    refine ⟨?_, kept.once⟩
    intro member
    obtain ⟨held, present, same⟩ := List.mem_map.mp member
    have before := serves.issued held present
    rw [same, number] at before
    exact Nat.not_succ_le_self _ before
  case refine_3 =>
    rw [List.forall_mem_cons]
    exact ⟨Nat.le_of_eq (number.trans grown.symm), kept.issued⟩
  case refine_4 => exact List.forall_mem_cons.mpr ⟨known, kept.algorithms⟩

/-- A provider in a mode of engines that is nobody else's can be cached by an engine. -/
theorem adopted {algorithm : AesAlgorithm} {mode : ChainingMode} (ofEngine : mode.OfEngine)
    (serves : token.Serves custody cached (algorithm.provider :: strangers))
    (alone : ∀ other ∈ strangers, other.raw ≠ algorithm.provider.raw)
    (inMode : token.providers.get? algorithm.provider.raw = some mode) :
    token.Serves custody ((Driven.cacheKey mode, algorithm) :: cached) strangers := by
  obtain ⟨first, later⟩ := List.forall_mem_cons.mp serves.apart
  refine ⟨serves.accounted, serves.live, serves.once, serves.issued, ?_, ?_, ?_⟩
  · rw [List.forall_mem_cons]
    exact ⟨⟨mode, ofEngine, rfl, inMode⟩, serves.open_in_mode⟩
  · intro provider member
    refine ⟨(later provider member).1, List.forall_mem_cons.mpr ⟨?_, (later provider member).2⟩⟩
    exact (alone provider member).symm
  · intro provider member
    apply serves.algorithms
    simp only [List.map_cons, List.mem_append, List.mem_cons] at member ⊢
    rcases member with (held | same | entry) | stranger
    · exact .inl (.inl held)
    · exact .inr (.inl same)
    · exact .inl (.inr entry)
    · exact .inr (.inr stranger)

end Serves

end Token

end CipherModes
