import TieredMemory.Order
import TieredMemory.Text.Blank
import TieredMemory.Text.Case
import TieredMemory.Text.Find

/-!
# Sentiment by lexicon

The sentiment of a text lies between minus one and one. Every positive marker in it counts for one
tenth and every negative one for a little more against it; exclamation marks and shouted words add
intensity in the direction of the greater part, and downwards where there is none.
-/

namespace TieredMemory.Sentiment

/-- Markers of good feeling. -/
def positiveMarkers : List String := [
  "great", "excellent", "perfect", "amazing", "wonderful",
  "fantastic", "awesome", "love", "thank you", "thanks"]

/-- Markers of bad feeling. -/
def negativeMarkers : List String := [
  "problem", "issue", "error", "bug", "fail", "wrong",
  "broken", "crash", "urgent", "emergency"]

/-- The given weight for every marker that occurs. -/
def weigh (weight : Float) (markers : List String) (lowered : String) : Float :=
  (markers.filter fun m => Text.occursIn m lowered).foldl (fun s _ => s + weight) 0

/-- The intensity that exclamation marks and shouted words of more than three letters give. -/
def intensity (text : String) : Float :=
  let exclaimed := least (Float.ofNat (Text.count "!" text) * 0.05) 0.2
  let shouted := ((Text.words text).filter fun w => w.length > 3 && Text.isShouted w).length
  exclaimed + least (Float.ofNat shouted * 0.1) 0.3

/-- The polarity strengthened by the intensity. -/
def strengthened (polarity intensity : Float) : Float :=
  if polarity > 0 then polarity + intensity
  else if polarity < 0 then polarity - intensity
  else if intensity == 0 then polarity
  else -intensity

/-- The sentiment of a text. -/
def ofText (text : String) : Float :=
  if text.isEmpty then 0
  else
    let lowered := Text.lower text
    let polarity := weigh 0.1 positiveMarkers lowered - weigh 0.15 negativeMarkers lowered
    clampSigned (strengthened polarity (intensity text))

end TieredMemory.Sentiment
