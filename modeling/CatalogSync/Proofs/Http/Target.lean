import CatalogSync.Http.Target
import CatalogSync.Proofs.Text.Form
/-!
# Targets that were written

A path with a written query is split into the two again.
-/

namespace CatalogSync.Http.Target

open Text (cut_append cut_eq_none)

/-- What begins with a slash names no peer. -/
theorem atPeer_of_slash {address : String} {rest : List Char}
    (haddress : address.toList = '/' :: rest) : atPeer address = address := by
  have hnone : afterPeer? address.toList = none := by
    rw [haddress, afterPeer?]
    · exact if_neg (by decide)
    · intro more h
      cases h
  unfold atPeer
  rw [hnone]

theorem split_query {path : String} {rest : List Char} (hslash : path.toList = '/' :: rest)
    (hfragment : '#' ∉ path.toList) (hquery : '?' ∉ path.toList) (pairs : List (String × String)) :
    split (path ++ "?" ++ Text.Form.encode pairs) = ⟨path, Text.Form.encode pairs⟩ := by
  have hchars : (path ++ "?" ++ Text.Form.encode pairs).toList =
      path.toList ++ '?' :: (Text.Form.encode pairs).toList := by
    rw [String.toList_append, String.toList_append, List.append_assoc]
    rfl
  have hwhole : Text.splitOnce '#' (path ++ "?" ++ Text.Form.encode pairs) = none := by
    have hno : '#' ∉ path.toList ++ '?' :: (Text.Form.encode pairs).toList := by
      simp only [List.mem_append, List.mem_cons, not_or]
      exact ⟨hfragment, by decide, Text.Form.notMem_encode (.inl rfl) pairs⟩
    rw [Text.splitOnce, hchars, cut_eq_none hno]
    rfl
  have hstart : (path ++ "?" ++ Text.Form.encode pairs).toList =
      '/' :: (rest ++ '?' :: (Text.Form.encode pairs).toList) := by
    rw [hchars, hslash]
    rfl
  have hcut : Text.splitOnce '?' (path ++ "?" ++ Text.Form.encode pairs) =
      some (path, Text.Form.encode pairs) := by
    rw [Text.splitOnce, hchars, cut_append hquery]
    simp only [Option.map_some, String.ofList_toList]
  unfold split
  simp only [hwhole, atPeer_of_slash hstart, hcut]

end CatalogSync.Http.Target
