import PathSieve.Proofs.Settings.Decode
import PathSieve.Proofs.Settings.Write
import PathSieve.Proofs.Text.Utf8.Decode
import PathSieve.Proofs.Tree.World
import PathSieve.Settings.Discover

namespace PathSieve.Settings

open Toml Toml.Layout
open Policy (Kind)

variable {diagnose : Text → Diagnosis} {settings : Settings}

lemma ofText_of_written {t : Text} (h : Written settings t) : ofText diagnose t = .ok settings := by
  obtain ⟨ls, o, hrun, hset, hdoc⟩ := h
  obtain ⟨span, es, hparse, hes⟩ := parse?_of_run hrun hdoc
  rw [ofText, hparse]
  exact congrArg (Except.mapError _) (ofNode_of_shows hes hset span .header)

theorem load_of_written {world : World} {path : Bytes} {t : Text} (h : Written settings t)
    (hread : world.read path = .ok (Utf8.encode t)) : load diagnose world path = .ok settings := by
  rw [load, hread]
  dsimp only
  rw [ofBytes, Utf8.decode?_encode]
  exact congrArg (Except.mapError _) (ofText_of_written h)

lemma body_plain {s s' t r : Text} (hs : s.all fun c => isText c ∧ c ≠ '"' ∧ c ≠ '\\')
    (h : Body s' t r) : Body (s ++ s') (s ++ t) r := by
  induction s with
  | nil => exact h
  | cons c s ih =>
    rw [List.all_cons, Bool.and_eq_true, decide_eq_true_iff] at hs
    obtain ⟨⟨hc, hq, hb⟩, hs⟩ := hs
    exact .plain hc hq hb (ih hs)

def sampleText : Text :=
  policyName ++ (" = \"known\\u002dpaths\" # kind\n".toList ++ (Kind.denylist.name ++
    (".exact = [\"a\\\"b\", \"\\U0001F600\"]\r\n\n[".toList ++ (Kind.allowlist.name ++
    "]\npatterns=[ ]".toList))))

def sampleSettings : Settings :=
  { policy := some .allowlist
    exact := some ["a\"b".toList, [Char.ofNat 0x1F600]]
    patterns := some [] }

def sampleLines : List Line :=
  [.setting policyName Kind.allowlist.name,
    .dotted Kind.denylist.name ("exact".toList, ["a\"b".toList, [Char.ofNat 0x1F600]]), .blank,
    .header Kind.allowlist.name, .field ("patterns".toList, [])]

lemma numbers_hyphen : Numbers ['0', '0', '2', 'd'] '-' :=
  ⟨[0, 0, 2, 13], by decide, by decide⟩

lemma numbers_face : Numbers "0001F600".toList (Char.ofNat 0x1F600) :=
  ⟨[0, 0, 0, 1, 15, 6, 0, 0], by decide, by decide⟩

lemma space {t r : Text} (h : Spaces t r) : Spaces (' ' :: t) r := .skip rfl h

lemma document_sample : Document sampleLines sampleText := by
  have hname (r : Text) : Quoted Kind.allowlist.name ("\"known\\u002dpaths\"".toList ++ r) r :=
    .mk (body_plain (s := "known".toList) (by decide)
      (.four numbers_hyphen (body_plain (s := "paths".toList) (by decide) (.close _))))
  have hkind (r : Text) : LineEnd (" # kind\n".toList ++ r) r :=
    .skip rfl (.comment (.mk (s := " kind".toList) _ (List.all_eq_true.mp (by decide))) (.feed _))
  have hquote (r : Text) : Quoted "a\"b".toList ("\"a\\\"b\"".toList ++ r) r :=
    .mk (.plain rfl (by decide) (by decide)
      (.short rfl (.plain rfl (by decide) (by decide) (.close _))))
  have hface (r : Text) : Quoted [Char.ofNat 0x1F600] ("\"\\U0001F600\"".toList ++ r) r :=
    .mk (.eight numbers_face (.close _))
  refine .cons (by decide)
    (.setting (.stop _) (space (.stop _)) (space (.stop _)) (hname _)) (hkind _) ?_
  refine .cons (by decide) (.dotted (.stop _) (.stop _) (.mk (.stop _) (space (.stop _))
    (space (.stop _)) (.mk (.more (.stop _) (hquote _) (.stop _)
      (.last (.skip rfl (.stop _)) (hface _) (.stop _)))))) (.newline (.returnFeed _)) ?_
  refine .cons (by decide) (.blank _) (.newline (.feed _)) ?_
  refine .cons (by decide) (.header (.stop _) (.stop _) (.stop _)) (.newline (.feed _)) ?_
  exact .cons (by decide)
    (.field (.mk (.stop _) (.stop _) (.stop _) (.mk (.close (.skip rfl (.stop _)))))) .stop .nil

lemma written_sample : Written sampleSettings sampleText := by
  have hrun : Outline.Run {} sampleLines _ :=
    .cons (.policy .allowlist rfl rfl) (.cons (.first rfl rfl (by decide)) (.cons (.blank _)
      (.cons (.header rfl) (.cons (.field rfl rfl (by decide) (by decide)) (.nil _)))))
  exact ⟨_, _, hrun, ⟨rfl, fun kind => by cases kind <;> exact .refl _⟩, document_sample⟩

theorem load_of_written_sample :
    Written sampleSettings sampleText ∧
      (World.holding (Utf8.encode sampleText)).read [0x63] = .ok (Utf8.encode sampleText) ∧
      ∀ diagnose,
        load diagnose (World.holding (Utf8.encode sampleText)) [0x63] = .ok sampleSettings :=
  ⟨written_sample, World.read_holding _,
    fun _ => load_of_written written_sample (World.read_holding _)⟩

end PathSieve.Settings
