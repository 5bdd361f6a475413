import UsageDiary.Zone.Basic

/-!
# Zones of the Pacific, Australia and Antarctica

The offset of each zone at 1970-01-01 and its changes up to 2038, as pairs of
a second of universal time and the offset in seconds from then on.
-/

namespace UsageDiary.Zone

/-- The zone `Pacific/Apia`. -/
def apia : Zone where
  name := "Pacific/Apia"
  base := -39600
  changes := [
    ⟨1285498800, -36000⟩, ⟨1301752800, -39600⟩, ⟨1316872800, -36000⟩, ⟨1325239200, 50400⟩,
    ⟨1333202400, 46800⟩, ⟨1348927200, 50400⟩, ⟨1365256800, 46800⟩, ⟨1380376800, 50400⟩,
    ⟨1396706400, 46800⟩, ⟨1411826400, 50400⟩, ⟨1428156000, 46800⟩, ⟨1443276000, 50400⟩,
    ⟨1459605600, 46800⟩, ⟨1474725600, 50400⟩, ⟨1491055200, 46800⟩, ⟨1506175200, 50400⟩,
    ⟨1522504800, 46800⟩, ⟨1538229600, 50400⟩, ⟨1554559200, 46800⟩, ⟨1569679200, 50400⟩,
    ⟨1586008800, 46800⟩, ⟨1601128800, 50400⟩, ⟨1617458400, 46800⟩]

/-- The zone `Australia/Lord_Howe`. -/
def lordHowe : Zone where
  name := "Australia/Lord_Howe"
  base := 36000
  changes := [
    ⟨352216800, 37800⟩, ⟨372785400, 41400⟩, ⟨384273000, 37800⟩, ⟨404839800, 41400⟩,
    ⟨415722600, 37800⟩, ⟨436289400, 41400⟩, ⟨447172200, 37800⟩, ⟨467739000, 41400⟩,
    ⟨478621800, 37800⟩, ⟨499188600, 39600⟩, ⟨511282800, 37800⟩, ⟨530033400, 39600⟩,
    ⟨542732400, 37800⟩, ⟨562087800, 39600⟩, ⟨574786800, 37800⟩, ⟨594142200, 39600⟩,
    ⟨606236400, 37800⟩, ⟨625591800, 39600⟩, ⟨636476400, 37800⟩, ⟨657041400, 39600⟩,
    ⟨667926000, 37800⟩, ⟨688491000, 39600⟩, ⟨699375600, 37800⟩, ⟨719940600, 39600⟩,
    ⟨731430000, 37800⟩, ⟨751995000, 39600⟩, ⟨762879600, 37800⟩, ⟨783444600, 39600⟩,
    ⟨794329200, 37800⟩, ⟨814894200, 39600⟩, ⟨828198000, 37800⟩, ⟨846343800, 39600⟩,
    ⟨859647600, 37800⟩, ⟨877793400, 39600⟩, ⟨891097200, 37800⟩, ⟨909243000, 39600⟩,
    ⟨922546800, 37800⟩, ⟨941297400, 39600⟩, ⟨953996400, 37800⟩, ⟨967303800, 39600⟩,
    ⟨985446000, 37800⟩, ⟨1004196600, 39600⟩, ⟨1017500400, 37800⟩, ⟨1035646200, 39600⟩,
    ⟨1048950000, 37800⟩, ⟨1067095800, 39600⟩, ⟨1080399600, 37800⟩, ⟨1099150200, 39600⟩,
    ⟨1111849200, 37800⟩, ⟨1130599800, 39600⟩, ⟨1143903600, 37800⟩, ⟨1162049400, 39600⟩,
    ⟨1174748400, 37800⟩, ⟨1193499000, 39600⟩, ⟨1207407600, 37800⟩, ⟨1223134200, 39600⟩,
    ⟨1238857200, 37800⟩, ⟨1254583800, 39600⟩, ⟨1270306800, 37800⟩, ⟨1286033400, 39600⟩,
    ⟨1301756400, 37800⟩, ⟨1317483000, 39600⟩, ⟨1333206000, 37800⟩, ⟨1349537400, 39600⟩,
    ⟨1365260400, 37800⟩, ⟨1380987000, 39600⟩, ⟨1396710000, 37800⟩, ⟨1412436600, 39600⟩,
    ⟨1428159600, 37800⟩, ⟨1443886200, 39600⟩, ⟨1459609200, 37800⟩, ⟨1475335800, 39600⟩,
    ⟨1491058800, 37800⟩, ⟨1506785400, 39600⟩, ⟨1522508400, 37800⟩, ⟨1538839800, 39600⟩,
    ⟨1554562800, 37800⟩, ⟨1570289400, 39600⟩, ⟨1586012400, 37800⟩, ⟨1601739000, 39600⟩,
    ⟨1617462000, 37800⟩, ⟨1633188600, 39600⟩, ⟨1648911600, 37800⟩, ⟨1664638200, 39600⟩,
    ⟨1680361200, 37800⟩, ⟨1696087800, 39600⟩, ⟨1712415600, 37800⟩, ⟨1728142200, 39600⟩,
    ⟨1743865200, 37800⟩, ⟨1759591800, 39600⟩, ⟨1775314800, 37800⟩, ⟨1791041400, 39600⟩,
    ⟨1806764400, 37800⟩, ⟨1822491000, 39600⟩, ⟨1838214000, 37800⟩, ⟨1853940600, 39600⟩,
    ⟨1869663600, 37800⟩, ⟨1885995000, 39600⟩, ⟨1901718000, 37800⟩, ⟨1917444600, 39600⟩,
    ⟨1933167600, 37800⟩, ⟨1948894200, 39600⟩, ⟨1964617200, 37800⟩, ⟨1980343800, 39600⟩,
    ⟨1996066800, 37800⟩, ⟨2011793400, 39600⟩, ⟨2027516400, 37800⟩, ⟨2043243000, 39600⟩,
    ⟨2058966000, 37800⟩, ⟨2075297400, 39600⟩, ⟨2091020400, 37800⟩, ⟨2106747000, 39600⟩,
    ⟨2122470000, 37800⟩, ⟨2138196600, 39600⟩]

/-- The zone `Pacific/Kiritimati`. -/
def kiritimati : Zone where
  name := "Pacific/Kiritimati"
  base := -38400
  changes := [
    ⟨307622400, -36000⟩, ⟨788868000, 50400⟩]

/-- The zone `Pacific/Kwajalein`. -/
def kwajalein : Zone where
  name := "Pacific/Kwajalein"
  base := -43200
  changes := [
    ⟨745934400, 43200⟩]

/-- The zone `Pacific/Chatham`. -/
def chatham : Zone where
  name := "Pacific/Chatham"
  base := 45900
  changes := [
    ⟨152632800, 49500⟩, ⟨162309600, 45900⟩, ⟨183477600, 49500⟩, ⟨194968800, 45900⟩,
    ⟨215532000, 49500⟩, ⟨226418400, 45900⟩, ⟨246981600, 49500⟩, ⟨257868000, 45900⟩,
    ⟨278431200, 49500⟩, ⟨289317600, 45900⟩, ⟨309880800, 49500⟩, ⟨320767200, 45900⟩,
    ⟨341330400, 49500⟩, ⟨352216800, 45900⟩, ⟨372780000, 49500⟩, ⟨384271200, 45900⟩,
    ⟨404834400, 49500⟩, ⟨415720800, 45900⟩, ⟨436284000, 49500⟩, ⟨447170400, 45900⟩,
    ⟨467733600, 49500⟩, ⟨478620000, 45900⟩, ⟨499183200, 49500⟩, ⟨510069600, 45900⟩,
    ⟨530632800, 49500⟩, ⟨541519200, 45900⟩, ⟨562082400, 49500⟩, ⟨573573600, 45900⟩,
    ⟨594136800, 49500⟩, ⟨605023200, 45900⟩, ⟨623772000, 49500⟩, ⟨637682400, 45900⟩,
    ⟨655221600, 49500⟩, ⟨669132000, 45900⟩, ⟨686671200, 49500⟩, ⟨700581600, 45900⟩,
    ⟨718120800, 49500⟩, ⟨732636000, 45900⟩, ⟨749570400, 49500⟩, ⟨764085600, 45900⟩,
    ⟨781020000, 49500⟩, ⟨795535200, 45900⟩, ⟨812469600, 49500⟩, ⟨826984800, 45900⟩,
    ⟨844524000, 49500⟩, ⟨858434400, 45900⟩, ⟨875973600, 49500⟩, ⟨889884000, 45900⟩,
    ⟨907423200, 49500⟩, ⟨921938400, 45900⟩, ⟨938872800, 49500⟩, ⟨953388000, 45900⟩,
    ⟨970322400, 49500⟩, ⟨984837600, 45900⟩, ⟨1002376800, 49500⟩, ⟨1016287200, 45900⟩,
    ⟨1033826400, 49500⟩, ⟨1047736800, 45900⟩, ⟨1065276000, 49500⟩, ⟨1079791200, 45900⟩,
    ⟨1096725600, 49500⟩, ⟨1111240800, 45900⟩, ⟨1128175200, 49500⟩, ⟨1142690400, 45900⟩,
    ⟨1159624800, 49500⟩, ⟨1174140000, 45900⟩, ⟨1191074400, 49500⟩, ⟨1207404000, 45900⟩,
    ⟨1222524000, 49500⟩, ⟨1238853600, 45900⟩, ⟨1253973600, 49500⟩, ⟨1270303200, 45900⟩,
    ⟨1285423200, 49500⟩, ⟨1301752800, 45900⟩, ⟨1316872800, 49500⟩, ⟨1333202400, 45900⟩,
    ⟨1348927200, 49500⟩, ⟨1365256800, 45900⟩, ⟨1380376800, 49500⟩, ⟨1396706400, 45900⟩,
    ⟨1411826400, 49500⟩, ⟨1428156000, 45900⟩, ⟨1443276000, 49500⟩, ⟨1459605600, 45900⟩,
    ⟨1474725600, 49500⟩, ⟨1491055200, 45900⟩, ⟨1506175200, 49500⟩, ⟨1522504800, 45900⟩,
    ⟨1538229600, 49500⟩, ⟨1554559200, 45900⟩, ⟨1569679200, 49500⟩, ⟨1586008800, 45900⟩,
    ⟨1601128800, 49500⟩, ⟨1617458400, 45900⟩, ⟨1632578400, 49500⟩, ⟨1648908000, 45900⟩,
    ⟨1664028000, 49500⟩, ⟨1680357600, 45900⟩, ⟨1695477600, 49500⟩, ⟨1712412000, 45900⟩,
    ⟨1727532000, 49500⟩, ⟨1743861600, 45900⟩, ⟨1758981600, 49500⟩, ⟨1775311200, 45900⟩,
    ⟨1790431200, 49500⟩, ⟨1806760800, 45900⟩, ⟨1821880800, 49500⟩, ⟨1838210400, 45900⟩,
    ⟨1853330400, 49500⟩, ⟨1869660000, 45900⟩, ⟨1885384800, 49500⟩, ⟨1901714400, 45900⟩,
    ⟨1916834400, 49500⟩, ⟨1933164000, 45900⟩, ⟨1948284000, 49500⟩, ⟨1964613600, 45900⟩,
    ⟨1979733600, 49500⟩, ⟨1996063200, 45900⟩, ⟨2011183200, 49500⟩, ⟨2027512800, 45900⟩,
    ⟨2042632800, 49500⟩, ⟨2058962400, 45900⟩, ⟨2074687200, 49500⟩, ⟨2091016800, 45900⟩,
    ⟨2106136800, 49500⟩, ⟨2122466400, 45900⟩, ⟨2137586400, 49500⟩]

/-- The zone `Antarctica/Troll`. -/
def troll : Zone where
  name := "Antarctica/Troll"
  base := 0
  changes := [
    ⟨1111885200, 7200⟩, ⟨1130634000, 0⟩, ⟨1143334800, 7200⟩, ⟨1162083600, 0⟩, ⟨1174784400, 7200⟩,
    ⟨1193533200, 0⟩, ⟨1206838800, 7200⟩, ⟨1224982800, 0⟩, ⟨1238288400, 7200⟩, ⟨1256432400, 0⟩,
    ⟨1269738000, 7200⟩, ⟨1288486800, 0⟩, ⟨1301187600, 7200⟩, ⟨1319936400, 0⟩, ⟨1332637200, 7200⟩,
    ⟨1351386000, 0⟩, ⟨1364691600, 7200⟩, ⟨1382835600, 0⟩, ⟨1396141200, 7200⟩, ⟨1414285200, 0⟩,
    ⟨1427590800, 7200⟩, ⟨1445734800, 0⟩, ⟨1459040400, 7200⟩, ⟨1477789200, 0⟩, ⟨1490490000, 7200⟩,
    ⟨1509238800, 0⟩, ⟨1521939600, 7200⟩, ⟨1540688400, 0⟩, ⟨1553994000, 7200⟩, ⟨1572138000, 0⟩,
    ⟨1585443600, 7200⟩, ⟨1603587600, 0⟩, ⟨1616893200, 7200⟩, ⟨1635642000, 0⟩, ⟨1648342800, 7200⟩,
    ⟨1667091600, 0⟩, ⟨1679792400, 7200⟩, ⟨1698541200, 0⟩, ⟨1711846800, 7200⟩, ⟨1729990800, 0⟩,
    ⟨1743296400, 7200⟩, ⟨1761440400, 0⟩, ⟨1774746000, 7200⟩, ⟨1792890000, 0⟩, ⟨1806195600, 7200⟩,
    ⟨1824944400, 0⟩, ⟨1837645200, 7200⟩, ⟨1856394000, 0⟩, ⟨1869094800, 7200⟩, ⟨1887843600, 0⟩,
    ⟨1901149200, 7200⟩, ⟨1919293200, 0⟩, ⟨1932598800, 7200⟩, ⟨1950742800, 0⟩, ⟨1964048400, 7200⟩,
    ⟨1982797200, 0⟩, ⟨1995498000, 7200⟩, ⟨2014246800, 0⟩, ⟨2026947600, 7200⟩, ⟨2045696400, 0⟩,
    ⟨2058397200, 7200⟩, ⟨2077146000, 0⟩, ⟨2090451600, 7200⟩, ⟨2108595600, 0⟩, ⟨2121901200, 7200⟩,
    ⟨2140045200, 0⟩]

end UsageDiary.Zone
