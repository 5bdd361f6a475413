import UsageDiary.Zone.Basic

/-!
# Zones of Asia

The offset of each zone at 1970-01-01 and its changes up to 2038, as pairs of
a second of universal time and the offset in seconds from then on.
-/

namespace UsageDiary.Zone

/-- The zone `Asia/Kolkata`. -/
def kolkata : Zone where
  name := "Asia/Kolkata"
  base := 19800
  changes := []

/-- The zone `Asia/Kathmandu`. -/
def kathmandu : Zone where
  name := "Asia/Kathmandu"
  base := 19800
  changes := [
    ⟨504901800, 20700⟩]

/-- The zone `Asia/Beirut`. -/
def beirut : Zone where
  name := "Asia/Beirut"
  base := 7200
  changes := [
    ⟨78012000, 10800⟩, ⟨86734800, 7200⟩, ⟨105055200, 10800⟩, ⟨118270800, 7200⟩,
    ⟨136591200, 10800⟩, ⟨149806800, 7200⟩, ⟨168127200, 10800⟩, ⟨181342800, 7200⟩,
    ⟨199749600, 10800⟩, ⟨212965200, 7200⟩, ⟨231285600, 10800⟩, ⟨244501200, 7200⟩,
    ⟨262735200, 10800⟩, ⟨275950800, 7200⟩, ⟨452210400, 10800⟩, ⟨466722000, 7200⟩,
    ⟨483746400, 10800⟩, ⟨498258000, 7200⟩, ⟨515282400, 10800⟩, ⟨529794000, 7200⟩,
    ⟨546818400, 10800⟩, ⟨561330000, 7200⟩, ⟨581119200, 10800⟩, ⟨592952400, 7200⟩,
    ⟨610754400, 10800⟩, ⟨624488400, 7200⟩, ⟨641512800, 10800⟩, ⟨656024400, 7200⟩,
    ⟨673048800, 10800⟩, ⟨687560400, 7200⟩, ⟨704671200, 10800⟩, ⟨718146000, 7200⟩,
    ⟨733269600, 10800⟩, ⟨748990800, 7200⟩, ⟨764719200, 10800⟩, ⟨780440400, 7200⟩,
    ⟨796168800, 10800⟩, ⟨811890000, 7200⟩, ⟨828223200, 10800⟩, ⟨843944400, 7200⟩,
    ⟨859672800, 10800⟩, ⟨875394000, 7200⟩, ⟨891122400, 10800⟩, ⟨906843600, 7200⟩,
    ⟨922572000, 10800⟩, ⟨941317200, 7200⟩, ⟨954021600, 10800⟩, ⟨972766800, 7200⟩,
    ⟨985471200, 10800⟩, ⟨1004216400, 7200⟩, ⟨1017525600, 10800⟩, ⟨1035666000, 7200⟩,
    ⟨1048975200, 10800⟩, ⟨1067115600, 7200⟩, ⟨1080424800, 10800⟩, ⟨1099170000, 7200⟩,
    ⟨1111874400, 10800⟩, ⟨1130619600, 7200⟩, ⟨1143324000, 10800⟩, ⟨1162069200, 7200⟩,
    ⟨1174773600, 10800⟩, ⟨1193518800, 7200⟩, ⟨1206828000, 10800⟩, ⟨1224968400, 7200⟩,
    ⟨1238277600, 10800⟩, ⟨1256418000, 7200⟩, ⟨1269727200, 10800⟩, ⟨1288472400, 7200⟩,
    ⟨1301176800, 10800⟩, ⟨1319922000, 7200⟩, ⟨1332626400, 10800⟩, ⟨1351371600, 7200⟩,
    ⟨1364680800, 10800⟩, ⟨1382821200, 7200⟩, ⟨1396130400, 10800⟩, ⟨1414270800, 7200⟩,
    ⟨1427580000, 10800⟩, ⟨1445720400, 7200⟩, ⟨1459029600, 10800⟩, ⟨1477774800, 7200⟩,
    ⟨1490479200, 10800⟩, ⟨1509224400, 7200⟩, ⟨1521928800, 10800⟩, ⟨1540674000, 7200⟩,
    ⟨1553983200, 10800⟩, ⟨1572123600, 7200⟩, ⟨1585432800, 10800⟩, ⟨1603573200, 7200⟩,
    ⟨1616882400, 10800⟩, ⟨1635627600, 7200⟩, ⟨1648332000, 10800⟩, ⟨1667077200, 7200⟩,
    ⟨1679781600, 10800⟩, ⟨1698526800, 7200⟩, ⟨1711836000, 10800⟩, ⟨1729976400, 7200⟩,
    ⟨1743285600, 10800⟩, ⟨1761426000, 7200⟩, ⟨1774735200, 10800⟩, ⟨1792875600, 7200⟩,
    ⟨1806184800, 10800⟩, ⟨1824930000, 7200⟩, ⟨1837634400, 10800⟩, ⟨1856379600, 7200⟩,
    ⟨1869084000, 10800⟩, ⟨1887829200, 7200⟩, ⟨1901138400, 10800⟩, ⟨1919278800, 7200⟩,
    ⟨1932588000, 10800⟩, ⟨1950728400, 7200⟩, ⟨1964037600, 10800⟩, ⟨1982782800, 7200⟩,
    ⟨1995487200, 10800⟩, ⟨2014232400, 7200⟩, ⟨2026936800, 10800⟩, ⟨2045682000, 7200⟩,
    ⟨2058386400, 10800⟩, ⟨2077131600, 7200⟩, ⟨2090440800, 10800⟩, ⟨2108581200, 7200⟩,
    ⟨2121890400, 10800⟩, ⟨2140030800, 7200⟩]

/-- The zone `Asia/Tehran`. -/
def tehran : Zone where
  name := "Asia/Tehran"
  base := 12600
  changes := [
    ⟨227820600, 16200⟩, ⟨246223800, 14400⟩, ⟨259617600, 18000⟩, ⟨271108800, 14400⟩,
    ⟨283982400, 12600⟩, ⟨296598600, 16200⟩, ⟨306531000, 12600⟩, ⟨322432200, 16200⟩,
    ⟨338499000, 12600⟩, ⟨673216200, 16200⟩, ⟨685481400, 12600⟩, ⟨701209800, 16200⟩,
    ⟨717103800, 12600⟩, ⟨732745800, 16200⟩, ⟨748639800, 12600⟩, ⟨764281800, 16200⟩,
    ⟨780175800, 12600⟩, ⟨795817800, 16200⟩, ⟨811711800, 12600⟩, ⟨827353800, 16200⟩,
    ⟨843247800, 12600⟩, ⟨858976200, 16200⟩, ⟨874870200, 12600⟩, ⟨890512200, 16200⟩,
    ⟨906406200, 12600⟩, ⟨922048200, 16200⟩, ⟨937942200, 12600⟩, ⟨953584200, 16200⟩,
    ⟨969478200, 12600⟩, ⟨985206600, 16200⟩, ⟨1001100600, 12600⟩, ⟨1016742600, 16200⟩,
    ⟨1032636600, 12600⟩, ⟨1048278600, 16200⟩, ⟨1064172600, 12600⟩, ⟨1079814600, 16200⟩,
    ⟨1095708600, 12600⟩, ⟨1111437000, 16200⟩, ⟨1127331000, 12600⟩, ⟨1206045000, 16200⟩,
    ⟨1221939000, 12600⟩, ⟨1237667400, 16200⟩, ⟨1253561400, 12600⟩, ⟨1269203400, 16200⟩,
    ⟨1285097400, 12600⟩, ⟨1300739400, 16200⟩, ⟨1316633400, 12600⟩, ⟨1332275400, 16200⟩,
    ⟨1348169400, 12600⟩, ⟨1363897800, 16200⟩, ⟨1379791800, 12600⟩, ⟨1395433800, 16200⟩,
    ⟨1411327800, 12600⟩, ⟨1426969800, 16200⟩, ⟨1442863800, 12600⟩, ⟨1458505800, 16200⟩,
    ⟨1474399800, 12600⟩, ⟨1490128200, 16200⟩, ⟨1506022200, 12600⟩, ⟨1521664200, 16200⟩,
    ⟨1537558200, 12600⟩, ⟨1553200200, 16200⟩, ⟨1569094200, 12600⟩, ⟨1584736200, 16200⟩,
    ⟨1600630200, 12600⟩, ⟨1616358600, 16200⟩, ⟨1632252600, 12600⟩, ⟨1647894600, 16200⟩,
    ⟨1663788600, 12600⟩]

end UsageDiary.Zone
