import UsageDiary.Zone.Basic

/-!
# Zones of Africa

The offset of each zone at 1970-01-01 and its changes up to 2038, as pairs of
a second of universal time and the offset in seconds from then on.
-/

namespace UsageDiary.Zone

/-- The zone `Africa/Monrovia`. -/
def monrovia : Zone where
  name := "Africa/Monrovia"
  base := -2670
  changes := [
    ⟨63593070, 0⟩]

/-- The zone `Africa/Cairo`. -/
def cairo : Zone where
  name := "Africa/Cairo"
  base := 7200
  changes := [
    ⟨10364400, 10800⟩, ⟨23587200, 7200⟩, ⟨41900400, 10800⟩, ⟨55123200, 7200⟩, ⟨73522800, 10800⟩,
    ⟨86745600, 7200⟩, ⟨105058800, 10800⟩, ⟨118281600, 7200⟩, ⟨136594800, 10800⟩,
    ⟨149817600, 7200⟩, ⟨168130800, 10800⟩, ⟨181353600, 7200⟩, ⟨199753200, 10800⟩,
    ⟨212976000, 7200⟩, ⟨231289200, 10800⟩, ⟨244512000, 7200⟩, ⟨262825200, 10800⟩,
    ⟨276048000, 7200⟩, ⟨294361200, 10800⟩, ⟨307584000, 7200⟩, ⟨325983600, 10800⟩,
    ⟨339206400, 7200⟩, ⟨357519600, 10800⟩, ⟨370742400, 7200⟩, ⟨396399600, 10800⟩,
    ⟨402278400, 7200⟩, ⟨426812400, 10800⟩, ⟨433814400, 7200⟩, ⟨452214000, 10800⟩,
    ⟨465436800, 7200⟩, ⟨483750000, 10800⟩, ⟨496972800, 7200⟩, ⟨515286000, 10800⟩,
    ⟨528508800, 7200⟩, ⟨546822000, 10800⟩, ⟨560044800, 7200⟩, ⟨578444400, 10800⟩,
    ⟨591667200, 7200⟩, ⟨610412400, 10800⟩, ⟨623203200, 7200⟩, ⟨641516400, 10800⟩,
    ⟨654739200, 7200⟩, ⟨673052400, 10800⟩, ⟨686275200, 7200⟩, ⟨704674800, 10800⟩,
    ⟨717897600, 7200⟩, ⟨736210800, 10800⟩, ⟨749433600, 7200⟩, ⟨767746800, 10800⟩,
    ⟨780969600, 7200⟩, ⟨799020000, 10800⟩, ⟨812322000, 7200⟩, ⟨830469600, 10800⟩,
    ⟨843771600, 7200⟩, ⟨861919200, 10800⟩, ⟨875221200, 7200⟩, ⟨893368800, 10800⟩,
    ⟨906670800, 7200⟩, ⟨925423200, 10800⟩, ⟨938725200, 7200⟩, ⟨956872800, 10800⟩,
    ⟨970174800, 7200⟩, ⟨988322400, 10800⟩, ⟨1001624400, 7200⟩, ⟨1019772000, 10800⟩,
    ⟨1033074000, 7200⟩, ⟨1051221600, 10800⟩, ⟨1064523600, 7200⟩, ⟨1083276000, 10800⟩,
    ⟨1096578000, 7200⟩, ⟨1114725600, 10800⟩, ⟨1128027600, 7200⟩, ⟨1146175200, 10800⟩,
    ⟨1158872400, 7200⟩, ⟨1177624800, 10800⟩, ⟨1189112400, 7200⟩, ⟨1209074400, 10800⟩,
    ⟨1219957200, 7200⟩, ⟨1240524000, 10800⟩, ⟨1250802000, 7200⟩, ⟨1272578400, 10800⟩,
    ⟨1281474000, 7200⟩, ⟨1284069600, 10800⟩, ⟨1285880400, 7200⟩, ⟨1400191200, 10800⟩,
    ⟨1403816400, 7200⟩, ⟨1406844000, 10800⟩, ⟨1411678800, 7200⟩, ⟨1682632800, 10800⟩,
    ⟨1698354000, 7200⟩, ⟨1714082400, 10800⟩, ⟨1730408400, 7200⟩, ⟨1745532000, 10800⟩,
    ⟨1761858000, 7200⟩, ⟨1776981600, 10800⟩, ⟨1793307600, 7200⟩, ⟨1809036000, 10800⟩,
    ⟨1824757200, 7200⟩, ⟨1840485600, 10800⟩, ⟨1856206800, 7200⟩, ⟨1871935200, 10800⟩,
    ⟨1887656400, 7200⟩, ⟨1903384800, 10800⟩, ⟨1919710800, 7200⟩, ⟨1934834400, 10800⟩,
    ⟨1951160400, 7200⟩, ⟨1966888800, 10800⟩, ⟨1982610000, 7200⟩, ⟨1998338400, 10800⟩,
    ⟨2014059600, 7200⟩, ⟨2029788000, 10800⟩, ⟨2045509200, 7200⟩, ⟨2061237600, 10800⟩,
    ⟨2076958800, 7200⟩, ⟨2092687200, 10800⟩, ⟨2109013200, 7200⟩, ⟨2124136800, 10800⟩,
    ⟨2140462800, 7200⟩]

end UsageDiary.Zone
