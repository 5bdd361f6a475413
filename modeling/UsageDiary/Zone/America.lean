import UsageDiary.Zone.Basic

/-!
# Zones of America

The offset of each zone at 1970-01-01 and its changes up to 2038, as pairs of
a second of universal time and the offset in seconds from then on.
-/

namespace UsageDiary.Zone

/-- The zone `America/New_York`. -/
def newYork : Zone where
  name := "America/New_York"
  base := -18000
  changes := [
    ⟨9961200, -14400⟩, ⟨25682400, -18000⟩, ⟨41410800, -14400⟩, ⟨57736800, -18000⟩,
    ⟨73465200, -14400⟩, ⟨89186400, -18000⟩, ⟨104914800, -14400⟩, ⟨120636000, -18000⟩,
    ⟨126687600, -14400⟩, ⟨152085600, -18000⟩, ⟨162370800, -14400⟩, ⟨183535200, -18000⟩,
    ⟨199263600, -14400⟩, ⟨215589600, -18000⟩, ⟨230713200, -14400⟩, ⟨247039200, -18000⟩,
    ⟨262767600, -14400⟩, ⟨278488800, -18000⟩, ⟨294217200, -14400⟩, ⟨309938400, -18000⟩,
    ⟨325666800, -14400⟩, ⟨341388000, -18000⟩, ⟨357116400, -14400⟩, ⟨372837600, -18000⟩,
    ⟨388566000, -14400⟩, ⟨404892000, -18000⟩, ⟨420015600, -14400⟩, ⟨436341600, -18000⟩,
    ⟨452070000, -14400⟩, ⟨467791200, -18000⟩, ⟨483519600, -14400⟩, ⟨499240800, -18000⟩,
    ⟨514969200, -14400⟩, ⟨530690400, -18000⟩, ⟨544604400, -14400⟩, ⟨562140000, -18000⟩,
    ⟨576054000, -14400⟩, ⟨594194400, -18000⟩, ⟨607503600, -14400⟩, ⟨625644000, -18000⟩,
    ⟨638953200, -14400⟩, ⟨657093600, -18000⟩, ⟨671007600, -14400⟩, ⟨688543200, -18000⟩,
    ⟨702457200, -14400⟩, ⟨719992800, -18000⟩, ⟨733906800, -14400⟩, ⟨752047200, -18000⟩,
    ⟨765356400, -14400⟩, ⟨783496800, -18000⟩, ⟨796806000, -14400⟩, ⟨814946400, -18000⟩,
    ⟨828860400, -14400⟩, ⟨846396000, -18000⟩, ⟨860310000, -14400⟩, ⟨877845600, -18000⟩,
    ⟨891759600, -14400⟩, ⟨909295200, -18000⟩, ⟨923209200, -14400⟩, ⟨941349600, -18000⟩,
    ⟨954658800, -14400⟩, ⟨972799200, -18000⟩, ⟨986108400, -14400⟩, ⟨1004248800, -18000⟩,
    ⟨1018162800, -14400⟩, ⟨1035698400, -18000⟩, ⟨1049612400, -14400⟩, ⟨1067148000, -18000⟩,
    ⟨1081062000, -14400⟩, ⟨1099202400, -18000⟩, ⟨1112511600, -14400⟩, ⟨1130652000, -18000⟩,
    ⟨1143961200, -14400⟩, ⟨1162101600, -18000⟩, ⟨1173596400, -14400⟩, ⟨1194156000, -18000⟩,
    ⟨1205046000, -14400⟩, ⟨1225605600, -18000⟩, ⟨1236495600, -14400⟩, ⟨1257055200, -18000⟩,
    ⟨1268550000, -14400⟩, ⟨1289109600, -18000⟩, ⟨1299999600, -14400⟩, ⟨1320559200, -18000⟩,
    ⟨1331449200, -14400⟩, ⟨1352008800, -18000⟩, ⟨1362898800, -14400⟩, ⟨1383458400, -18000⟩,
    ⟨1394348400, -14400⟩, ⟨1414908000, -18000⟩, ⟨1425798000, -14400⟩, ⟨1446357600, -18000⟩,
    ⟨1457852400, -14400⟩, ⟨1478412000, -18000⟩, ⟨1489302000, -14400⟩, ⟨1509861600, -18000⟩,
    ⟨1520751600, -14400⟩, ⟨1541311200, -18000⟩, ⟨1552201200, -14400⟩, ⟨1572760800, -18000⟩,
    ⟨1583650800, -14400⟩, ⟨1604210400, -18000⟩, ⟨1615705200, -14400⟩, ⟨1636264800, -18000⟩,
    ⟨1647154800, -14400⟩, ⟨1667714400, -18000⟩, ⟨1678604400, -14400⟩, ⟨1699164000, -18000⟩,
    ⟨1710054000, -14400⟩, ⟨1730613600, -18000⟩, ⟨1741503600, -14400⟩, ⟨1762063200, -18000⟩,
    ⟨1772953200, -14400⟩, ⟨1793512800, -18000⟩, ⟨1805007600, -14400⟩, ⟨1825567200, -18000⟩,
    ⟨1836457200, -14400⟩, ⟨1857016800, -18000⟩, ⟨1867906800, -14400⟩, ⟨1888466400, -18000⟩,
    ⟨1899356400, -14400⟩, ⟨1919916000, -18000⟩, ⟨1930806000, -14400⟩, ⟨1951365600, -18000⟩,
    ⟨1962860400, -14400⟩, ⟨1983420000, -18000⟩, ⟨1994310000, -14400⟩, ⟨2014869600, -18000⟩,
    ⟨2025759600, -14400⟩, ⟨2046319200, -18000⟩, ⟨2057209200, -14400⟩, ⟨2077768800, -18000⟩,
    ⟨2088658800, -14400⟩, ⟨2109218400, -18000⟩, ⟨2120108400, -14400⟩, ⟨2140668000, -18000⟩]

/-- The zone `America/Sao_Paulo`. -/
def saoPaulo : Zone where
  name := "America/Sao_Paulo"
  base := -10800
  changes := [
    ⟨499748400, -7200⟩, ⟨511236000, -10800⟩, ⟨530593200, -7200⟩, ⟨540266400, -10800⟩,
    ⟨562129200, -7200⟩, ⟨571197600, -10800⟩, ⟨592974000, -7200⟩, ⟨602042400, -10800⟩,
    ⟨624423600, -7200⟩, ⟨634701600, -10800⟩, ⟨656478000, -7200⟩, ⟨666756000, -10800⟩,
    ⟨687927600, -7200⟩, ⟨697600800, -10800⟩, ⟨719982000, -7200⟩, ⟨728445600, -10800⟩,
    ⟨750826800, -7200⟩, ⟨761709600, -10800⟩, ⟨782276400, -7200⟩, ⟨793159200, -10800⟩,
    ⟨813726000, -7200⟩, ⟨824004000, -10800⟩, ⟨844570800, -7200⟩, ⟨856058400, -10800⟩,
    ⟨876106800, -7200⟩, ⟨888717600, -10800⟩, ⟨908074800, -7200⟩, ⟨919562400, -10800⟩,
    ⟨938919600, -7200⟩, ⟨951616800, -10800⟩, ⟨970974000, -7200⟩, ⟨982461600, -10800⟩,
    ⟨1003028400, -7200⟩, ⟨1013911200, -10800⟩, ⟨1036292400, -7200⟩, ⟨1045360800, -10800⟩,
    ⟨1066532400, -7200⟩, ⟨1076810400, -10800⟩, ⟨1099364400, -7200⟩, ⟨1108864800, -10800⟩,
    ⟨1129431600, -7200⟩, ⟨1140314400, -10800⟩, ⟨1162695600, -7200⟩, ⟨1172368800, -10800⟩,
    ⟨1192330800, -7200⟩, ⟨1203213600, -10800⟩, ⟨1224385200, -7200⟩, ⟨1234663200, -10800⟩,
    ⟨1255834800, -7200⟩, ⟨1266717600, -10800⟩, ⟨1287284400, -7200⟩, ⟨1298167200, -10800⟩,
    ⟨1318734000, -7200⟩, ⟨1330221600, -10800⟩, ⟨1350788400, -7200⟩, ⟨1361066400, -10800⟩,
    ⟨1382238000, -7200⟩, ⟨1392516000, -10800⟩, ⟨1413687600, -7200⟩, ⟨1424570400, -10800⟩,
    ⟨1445137200, -7200⟩, ⟨1456020000, -10800⟩, ⟨1476586800, -7200⟩, ⟨1487469600, -10800⟩,
    ⟨1508036400, -7200⟩, ⟨1518919200, -10800⟩, ⟨1541300400, -7200⟩, ⟨1550368800, -10800⟩]

/-- The zone `America/St_Johns`. -/
def stJohns : Zone where
  name := "America/St_Johns"
  base := -12600
  changes := [
    ⟨9955800, -9000⟩, ⟨25677000, -12600⟩, ⟨41405400, -9000⟩, ⟨57731400, -12600⟩,
    ⟨73459800, -9000⟩, ⟨89181000, -12600⟩, ⟨104909400, -9000⟩, ⟨120630600, -12600⟩,
    ⟨136359000, -9000⟩, ⟨152080200, -12600⟩, ⟨167808600, -9000⟩, ⟨183529800, -12600⟩,
    ⟨199258200, -9000⟩, ⟨215584200, -12600⟩, ⟨230707800, -9000⟩, ⟨247033800, -12600⟩,
    ⟨262762200, -9000⟩, ⟨278483400, -12600⟩, ⟨294211800, -9000⟩, ⟨309933000, -12600⟩,
    ⟨325661400, -9000⟩, ⟨341382600, -12600⟩, ⟨357111000, -9000⟩, ⟨372832200, -12600⟩,
    ⟨388560600, -9000⟩, ⟨404886600, -12600⟩, ⟨420010200, -9000⟩, ⟨436336200, -12600⟩,
    ⟨452064600, -9000⟩, ⟨467785800, -12600⟩, ⟨483514200, -9000⟩, ⟨499235400, -12600⟩,
    ⟨514963800, -9000⟩, ⟨530685000, -12600⟩, ⟨544591860, -9000⟩, ⟨562127460, -12600⟩,
    ⟨576041460, -5400⟩, ⟨594178260, -12600⟩, ⟨607491060, -9000⟩, ⟨625631460, -12600⟩,
    ⟨638940660, -9000⟩, ⟨657081060, -12600⟩, ⟨670995060, -9000⟩, ⟨688530660, -12600⟩,
    ⟨702444660, -9000⟩, ⟨719980260, -12600⟩, ⟨733894260, -9000⟩, ⟨752034660, -12600⟩,
    ⟨765343860, -9000⟩, ⟨783484260, -12600⟩, ⟨796793460, -9000⟩, ⟨814933860, -12600⟩,
    ⟨828847860, -9000⟩, ⟨846383460, -12600⟩, ⟨860297460, -9000⟩, ⟨877833060, -12600⟩,
    ⟨891747060, -9000⟩, ⟨909282660, -12600⟩, ⟨923196660, -9000⟩, ⟨941337060, -12600⟩,
    ⟨954646260, -9000⟩, ⟨972786660, -12600⟩, ⟨986095860, -9000⟩, ⟨1004236260, -12600⟩,
    ⟨1018150260, -9000⟩, ⟨1035685860, -12600⟩, ⟨1049599860, -9000⟩, ⟨1067135460, -12600⟩,
    ⟨1081049460, -9000⟩, ⟨1099189860, -12600⟩, ⟨1112499060, -9000⟩, ⟨1130639460, -12600⟩,
    ⟨1143948660, -9000⟩, ⟨1162089060, -12600⟩, ⟨1173583860, -9000⟩, ⟨1194143460, -12600⟩,
    ⟨1205033460, -9000⟩, ⟨1225593060, -12600⟩, ⟨1236483060, -9000⟩, ⟨1257042660, -12600⟩,
    ⟨1268537460, -9000⟩, ⟨1289097060, -12600⟩, ⟨1299987060, -9000⟩, ⟨1320553800, -12600⟩,
    ⟨1331443800, -9000⟩, ⟨1352003400, -12600⟩, ⟨1362893400, -9000⟩, ⟨1383453000, -12600⟩,
    ⟨1394343000, -9000⟩, ⟨1414902600, -12600⟩, ⟨1425792600, -9000⟩, ⟨1446352200, -12600⟩,
    ⟨1457847000, -9000⟩, ⟨1478406600, -12600⟩, ⟨1489296600, -9000⟩, ⟨1509856200, -12600⟩,
    ⟨1520746200, -9000⟩, ⟨1541305800, -12600⟩, ⟨1552195800, -9000⟩, ⟨1572755400, -12600⟩,
    ⟨1583645400, -9000⟩, ⟨1604205000, -12600⟩, ⟨1615699800, -9000⟩, ⟨1636259400, -12600⟩,
    ⟨1647149400, -9000⟩, ⟨1667709000, -12600⟩, ⟨1678599000, -9000⟩, ⟨1699158600, -12600⟩,
    ⟨1710048600, -9000⟩, ⟨1730608200, -12600⟩, ⟨1741498200, -9000⟩, ⟨1762057800, -12600⟩,
    ⟨1772947800, -9000⟩, ⟨1793507400, -12600⟩, ⟨1805002200, -9000⟩, ⟨1825561800, -12600⟩,
    ⟨1836451800, -9000⟩, ⟨1857011400, -12600⟩, ⟨1867901400, -9000⟩, ⟨1888461000, -12600⟩,
    ⟨1899351000, -9000⟩, ⟨1919910600, -12600⟩, ⟨1930800600, -9000⟩, ⟨1951360200, -12600⟩,
    ⟨1962855000, -9000⟩, ⟨1983414600, -12600⟩, ⟨1994304600, -9000⟩, ⟨2014864200, -12600⟩,
    ⟨2025754200, -9000⟩, ⟨2046313800, -12600⟩, ⟨2057203800, -9000⟩, ⟨2077763400, -12600⟩,
    ⟨2088653400, -9000⟩, ⟨2109213000, -12600⟩, ⟨2120103000, -9000⟩, ⟨2140662600, -12600⟩]

/-- The zone `America/Havana`. -/
def havana : Zone where
  name := "America/Havana"
  base := -18000
  changes := [
    ⟨9954000, -14400⟩, ⟨25675200, -18000⟩, ⟨41403600, -14400⟩, ⟨57729600, -18000⟩,
    ⟨73458000, -14400⟩, ⟨87364800, -18000⟩, ⟨104907600, -14400⟩, ⟨118900800, -18000⟩,
    ⟨136357200, -14400⟩, ⟨150436800, -18000⟩, ⟨167806800, -14400⟩, ⟨183528000, -18000⟩,
    ⟨199256400, -14400⟩, ⟨215582400, -18000⟩, ⟨230706000, -14400⟩, ⟨247032000, -18000⟩,
    ⟨263365200, -14400⟩, ⟨276667200, -18000⟩, ⟨290581200, -14400⟩, ⟨308721600, -18000⟩,
    ⟨322030800, -14400⟩, ⟨340171200, -18000⟩, ⟨358318800, -14400⟩, ⟨371620800, -18000⟩,
    ⟨389768400, -14400⟩, ⟨403070400, -18000⟩, ⟨421218000, -14400⟩, ⟨434520000, -18000⟩,
    ⟨452667600, -14400⟩, ⟨466574400, -18000⟩, ⟨484117200, -14400⟩, ⟨498024000, -18000⟩,
    ⟨511333200, -14400⟩, ⟨529473600, -18000⟩, ⟨542782800, -14400⟩, ⟨560923200, -18000⟩,
    ⟨574837200, -14400⟩, ⟨592372800, -18000⟩, ⟨606286800, -14400⟩, ⟨623822400, -18000⟩,
    ⟨638946000, -14400⟩, ⟨655876800, -18000⟩, ⟨671000400, -14400⟩, ⟨687330000, -18000⟩,
    ⟨702450000, -14400⟩, ⟨718779600, -18000⟩, ⟨733899600, -14400⟩, ⟨750229200, -18000⟩,
    ⟨765349200, -14400⟩, ⟨781678800, -18000⟩, ⟨796798800, -14400⟩, ⟨813128400, -18000⟩,
    ⟨828853200, -14400⟩, ⟨844578000, -18000⟩, ⟨860302800, -14400⟩, ⟨876632400, -18000⟩,
    ⟨891147600, -14400⟩, ⟨909291600, -18000⟩, ⟨922597200, -14400⟩, ⟨941346000, -18000⟩,
    ⟨954651600, -14400⟩, ⟨972795600, -18000⟩, ⟨986101200, -14400⟩, ⟨1004245200, -18000⟩,
    ⟨1018155600, -14400⟩, ⟨1035694800, -18000⟩, ⟨1049605200, -14400⟩, ⟨1067144400, -18000⟩,
    ⟨1080450000, -14400⟩, ⟨1162098000, -18000⟩, ⟨1173589200, -14400⟩, ⟨1193547600, -18000⟩,
    ⟨1205643600, -14400⟩, ⟨1224997200, -18000⟩, ⟨1236488400, -14400⟩, ⟨1256446800, -18000⟩,
    ⟨1268542800, -14400⟩, ⟨1288501200, -18000⟩, ⟨1300597200, -14400⟩, ⟨1321160400, -18000⟩,
    ⟨1333256400, -14400⟩, ⟨1352005200, -18000⟩, ⟨1362891600, -14400⟩, ⟨1383454800, -18000⟩,
    ⟨1394341200, -14400⟩, ⟨1414904400, -18000⟩, ⟨1425790800, -14400⟩, ⟨1446354000, -18000⟩,
    ⟨1457845200, -14400⟩, ⟨1478408400, -18000⟩, ⟨1489294800, -14400⟩, ⟨1509858000, -18000⟩,
    ⟨1520744400, -14400⟩, ⟨1541307600, -18000⟩, ⟨1552194000, -14400⟩, ⟨1572757200, -18000⟩,
    ⟨1583643600, -14400⟩, ⟨1604206800, -18000⟩, ⟨1615698000, -14400⟩, ⟨1636261200, -18000⟩,
    ⟨1647147600, -14400⟩, ⟨1667710800, -18000⟩, ⟨1678597200, -14400⟩, ⟨1699160400, -18000⟩,
    ⟨1710046800, -14400⟩, ⟨1730610000, -18000⟩, ⟨1741496400, -14400⟩, ⟨1762059600, -18000⟩,
    ⟨1772946000, -14400⟩, ⟨1793509200, -18000⟩, ⟨1805000400, -14400⟩, ⟨1825563600, -18000⟩,
    ⟨1836450000, -14400⟩, ⟨1857013200, -18000⟩, ⟨1867899600, -14400⟩, ⟨1888462800, -18000⟩,
    ⟨1899349200, -14400⟩, ⟨1919912400, -18000⟩, ⟨1930798800, -14400⟩, ⟨1951362000, -18000⟩,
    ⟨1962853200, -14400⟩, ⟨1983416400, -18000⟩, ⟨1994302800, -14400⟩, ⟨2014866000, -18000⟩,
    ⟨2025752400, -14400⟩, ⟨2046315600, -18000⟩, ⟨2057202000, -14400⟩, ⟨2077765200, -18000⟩,
    ⟨2088651600, -14400⟩, ⟨2109214800, -18000⟩, ⟨2120101200, -14400⟩, ⟨2140664400, -18000⟩]

/-- The zone `America/Santiago`. -/
def santiago : Zone where
  name := "America/Santiago"
  base := -10800
  changes := [
    ⟨7527600, -14400⟩, ⟨24465600, -10800⟩, ⟨37767600, -14400⟩, ⟨55915200, -10800⟩,
    ⟨69217200, -14400⟩, ⟨87969600, -10800⟩, ⟨100666800, -14400⟩, ⟨118209600, -10800⟩,
    ⟨132116400, -14400⟩, ⟨150868800, -10800⟩, ⟨163566000, -14400⟩, ⟨182318400, -10800⟩,
    ⟨195620400, -14400⟩, ⟨213768000, -10800⟩, ⟨227070000, -14400⟩, ⟨245217600, -10800⟩,
    ⟨258519600, -14400⟩, ⟨277272000, -10800⟩, ⟨289969200, -14400⟩, ⟨308721600, -10800⟩,
    ⟨321418800, -14400⟩, ⟨340171200, -10800⟩, ⟨353473200, -14400⟩, ⟨371620800, -10800⟩,
    ⟨384922800, -14400⟩, ⟨403070400, -10800⟩, ⟨416372400, -14400⟩, ⟨434520000, -10800⟩,
    ⟨447822000, -14400⟩, ⟨466574400, -10800⟩, ⟨479271600, -14400⟩, ⟨498024000, -10800⟩,
    ⟨510721200, -14400⟩, ⟨529473600, -10800⟩, ⟨545194800, -14400⟩, ⟨560923200, -10800⟩,
    ⟨574225200, -14400⟩, ⟨592372800, -10800⟩, ⟨605674800, -14400⟩, ⟨624427200, -10800⟩,
    ⟨637124400, -14400⟩, ⟨653457600, -10800⟩, ⟨668574000, -14400⟩, ⟨687326400, -10800⟩,
    ⟨700628400, -14400⟩, ⟨718776000, -10800⟩, ⟨732078000, -14400⟩, ⟨750225600, -10800⟩,
    ⟨763527600, -14400⟩, ⟨781675200, -10800⟩, ⟨794977200, -14400⟩, ⟨813729600, -10800⟩,
    ⟨826426800, -14400⟩, ⟨845179200, -10800⟩, ⟨859690800, -14400⟩, ⟨876628800, -10800⟩,
    ⟨889930800, -14400⟩, ⟨906868800, -10800⟩, ⟨923194800, -14400⟩, ⟨939528000, -10800⟩,
    ⟨952830000, -14400⟩, ⟨971582400, -10800⟩, ⟨984279600, -14400⟩, ⟨1003032000, -10800⟩,
    ⟨1015729200, -14400⟩, ⟨1034481600, -10800⟩, ⟨1047178800, -14400⟩, ⟨1065931200, -10800⟩,
    ⟨1079233200, -14400⟩, ⟨1097380800, -10800⟩, ⟨1110682800, -14400⟩, ⟨1128830400, -10800⟩,
    ⟨1142132400, -14400⟩, ⟨1160884800, -10800⟩, ⟨1173582000, -14400⟩, ⟨1192334400, -10800⟩,
    ⟨1206846000, -14400⟩, ⟨1223784000, -10800⟩, ⟨1237086000, -14400⟩, ⟨1255233600, -10800⟩,
    ⟨1270350000, -14400⟩, ⟨1286683200, -10800⟩, ⟨1304823600, -14400⟩, ⟨1313899200, -10800⟩,
    ⟨1335668400, -14400⟩, ⟨1346558400, -10800⟩, ⟨1367118000, -14400⟩, ⟨1378612800, -10800⟩,
    ⟨1398567600, -14400⟩, ⟨1410062400, -10800⟩, ⟨1463281200, -14400⟩, ⟨1471147200, -10800⟩,
    ⟨1494730800, -14400⟩, ⟨1502596800, -10800⟩, ⟨1526180400, -14400⟩, ⟨1534046400, -10800⟩,
    ⟨1554606000, -14400⟩, ⟨1567915200, -10800⟩, ⟨1586055600, -14400⟩, ⟨1599364800, -10800⟩,
    ⟨1617505200, -14400⟩, ⟨1630814400, -10800⟩, ⟨1648954800, -14400⟩, ⟨1662868800, -10800⟩,
    ⟨1680404400, -14400⟩, ⟨1693713600, -10800⟩, ⟨1712458800, -14400⟩, ⟨1725768000, -10800⟩,
    ⟨1743908400, -14400⟩, ⟨1757217600, -10800⟩, ⟨1775358000, -14400⟩, ⟨1788667200, -10800⟩,
    ⟨1806807600, -14400⟩, ⟨1820116800, -10800⟩, ⟨1838257200, -14400⟩, ⟨1851566400, -10800⟩,
    ⟨1870311600, -14400⟩, ⟨1883016000, -10800⟩, ⟨1901761200, -14400⟩, ⟨1915070400, -10800⟩,
    ⟨1933210800, -14400⟩, ⟨1946520000, -10800⟩, ⟨1964660400, -14400⟩, ⟨1977969600, -10800⟩,
    ⟨1996110000, -14400⟩, ⟨2009419200, -10800⟩, ⟨2027559600, -14400⟩, ⟨2040868800, -10800⟩,
    ⟨2059614000, -14400⟩, ⟨2072318400, -10800⟩, ⟨2091063600, -14400⟩, ⟨2104372800, -10800⟩,
    ⟨2122513200, -14400⟩, ⟨2135822400, -10800⟩]

/-- The zone `America/Asuncion`. -/
def asuncion : Zone where
  name := "America/Asuncion"
  base := -14400
  changes := [
    ⟨86760000, -10800⟩, ⟨134017200, -14400⟩, ⟨181368000, -10800⟩, ⟨194497200, -14400⟩,
    ⟨212990400, -10800⟩, ⟨226033200, -14400⟩, ⟨244526400, -10800⟩, ⟨257569200, -14400⟩,
    ⟨276062400, -10800⟩, ⟨291783600, -14400⟩, ⟨307598400, -10800⟩, ⟨323406000, -14400⟩,
    ⟨339220800, -10800⟩, ⟨354942000, -14400⟩, ⟨370756800, -10800⟩, ⟨386478000, -14400⟩,
    ⟨402292800, -10800⟩, ⟨418014000, -14400⟩, ⟨433828800, -10800⟩, ⟨449636400, -14400⟩,
    ⟨465451200, -10800⟩, ⟨481172400, -14400⟩, ⟨496987200, -10800⟩, ⟨512708400, -14400⟩,
    ⟨528523200, -10800⟩, ⟨544244400, -14400⟩, ⟨560059200, -10800⟩, ⟨575866800, -14400⟩,
    ⟨591681600, -10800⟩, ⟨607402800, -14400⟩, ⟨625032000, -10800⟩, ⟨638938800, -14400⟩,
    ⟨654753600, -10800⟩, ⟨670474800, -14400⟩, ⟨686721600, -10800⟩, ⟨699418800, -14400⟩,
    ⟨718257600, -10800⟩, ⟨733546800, -14400⟩, ⟨749448000, -10800⟩, ⟨762318000, -14400⟩,
    ⟨780984000, -10800⟩, ⟨793767600, -14400⟩, ⟨812520000, -10800⟩, ⟨825649200, -14400⟩,
    ⟨844574400, -10800⟩, ⟨856666800, -14400⟩, ⟨876024000, -10800⟩, ⟨888721200, -14400⟩,
    ⟨907473600, -10800⟩, ⟨920775600, -14400⟩, ⟨938923200, -10800⟩, ⟨952225200, -14400⟩,
    ⟨970372800, -10800⟩, ⟨983674800, -14400⟩, ⟨1002427200, -10800⟩, ⟨1018148400, -14400⟩,
    ⟨1030852800, -10800⟩, ⟨1049598000, -14400⟩, ⟨1062907200, -10800⟩, ⟨1081047600, -14400⟩,
    ⟨1097985600, -10800⟩, ⟨1110682800, -14400⟩, ⟨1129435200, -10800⟩, ⟨1142132400, -14400⟩,
    ⟨1160884800, -10800⟩, ⟨1173582000, -14400⟩, ⟨1192939200, -10800⟩, ⟨1205031600, -14400⟩,
    ⟨1224388800, -10800⟩, ⟨1236481200, -14400⟩, ⟨1255838400, -10800⟩, ⟨1270954800, -14400⟩,
    ⟨1286078400, -10800⟩, ⟨1302404400, -14400⟩, ⟨1317528000, -10800⟩, ⟨1333854000, -14400⟩,
    ⟨1349582400, -10800⟩, ⟨1364094000, -14400⟩, ⟨1381032000, -10800⟩, ⟨1395543600, -14400⟩,
    ⟨1412481600, -10800⟩, ⟨1426993200, -14400⟩, ⟨1443931200, -10800⟩, ⟨1459047600, -14400⟩,
    ⟨1475380800, -10800⟩, ⟨1490497200, -14400⟩, ⟨1506830400, -10800⟩, ⟨1521946800, -14400⟩,
    ⟨1538884800, -10800⟩, ⟨1553396400, -14400⟩, ⟨1570334400, -10800⟩, ⟨1584846000, -14400⟩,
    ⟨1601784000, -10800⟩, ⟨1616900400, -14400⟩, ⟨1633233600, -10800⟩, ⟨1648350000, -14400⟩,
    ⟨1664683200, -10800⟩, ⟨1679799600, -14400⟩, ⟨1696132800, -10800⟩, ⟨1711249200, -14400⟩,
    ⟨1728187200, -10800⟩, ⟨1742698800, -14400⟩, ⟨1759636800, -10800⟩, ⟨1774148400, -14400⟩,
    ⟨1791086400, -10800⟩, ⟨1806202800, -14400⟩, ⟨1822536000, -10800⟩, ⟨1837652400, -14400⟩,
    ⟨1853985600, -10800⟩, ⟨1869102000, -14400⟩, ⟨1886040000, -10800⟩, ⟨1900551600, -14400⟩,
    ⟨1917489600, -10800⟩, ⟨1932001200, -14400⟩, ⟨1948939200, -10800⟩, ⟨1964055600, -14400⟩,
    ⟨1980388800, -10800⟩, ⟨1995505200, -14400⟩, ⟨2011838400, -10800⟩, ⟨2026954800, -14400⟩,
    ⟨2043288000, -10800⟩, ⟨2058404400, -14400⟩, ⟨2075342400, -10800⟩, ⟨2089854000, -14400⟩,
    ⟨2106792000, -10800⟩, ⟨2121303600, -14400⟩, ⟨2138241600, -10800⟩]

end UsageDiary.Zone
